import MediasoupClient.Api.Produce
import MediasoupClient.Sdp.Extracted
import MediasoupClient.Sdp.LegacySimulcast

/-! The cname that is reported to the server (sdputil/sdputil.cpp, getCname).

        a=ssrc:1 cname:c            a=ssrc:1 msid:s t
        a=ssrc:1 msid:s t           a=ssrc:1 cname:c
              │                           │
              ▼                           ▼
        rtcp: { cname: "c" }        rtcp: { cname: "s t" }

    The line is looked for by the type of its attribute: the first one that has a text there is
    taken, whatever the text is. `addLegacySimulcast`, which looks for the same line, compares it. -/

namespace MediasoupClient.Api
open Lib Sdp

/-! ### The lines of a section -/

/-- Whether a line has an attribute. -/
def hasText (line : Json) : Bool := (line.find "attribute").any (·.isString)

/-- The first line that has an attribute. -/
def firstAttribute (offerMediaObject : Json) : Option Json :=
  (linesAt "ssrcs" offerMediaObject).find? hasText

/-- The first line whose attribute is `cname`. -/
def firstCname (offerMediaObject : Json) : Option Json :=
  (linesAt "ssrcs" offerMediaObject).find? (hasAttribute "cname")

/-- The cname is found: it is the value of the first such line, and empty exactly if there is
    none. -/
def FindsCname (offerMediaObject : Json) : Prop :=
  ∃ cname, getCname offerMediaObject = .ok cname ∧
    (∀ line ∈ firstCname offerMediaObject, line.find "value" = some (.str cname)) ∧
    (cname = "" ↔ firstCname offerMediaObject = none)

/-- No line has an attribute; or the first one that has carries the text of the first cname line,
    which is not empty, or an empty one if there is no cname line. -/
def CnameFirst (offerMediaObject : Json) : Prop :=
  firstAttribute offerMediaObject = none ∨
    ∃ line text, firstAttribute offerMediaObject = some line ∧
      line.find "value" = some (.str text) ∧
      match firstCname offerMediaObject with
      | none => text = ""
      | some cnameLine => text ≠ "" ∧ cnameLine.find "value" = some (.str text)

/-- What `enable_audio` and `enable_video` report for a section: the cname is found in it, and is a
    member of the parameters that are made for either kind. -/
structure Reports (offerMediaObject : Json) (cname : String) : Prop where
  found : getCname offerMediaObject = .ok cname
  sent : ∀ kind ext localId encodings params,
    sendRtpParam kind ext localId cname encodings = .ok params →
      (params.find "rtcp").bind (·.find "cname") = some (.str cname)

/-- One cname is reported for the lines in every order. -/
def SameInEveryOrder (lines : List Json) : Prop :=
  ∃ cname, ∀ lines', lines'.Perm lines → ∀ offerMediaObject : Json,
    offerMediaObject.find "ssrcs" = some (.arr lines') → Reports offerMediaObject cname

/-- All lines that have an attribute have one value. -/
def OneValue (lines : List Json) : Prop :=
  ∃ value, ∀ line ∈ lines, hasText line = true → line.find "value" = some (.str value)

/-! ### What the search returns -/

theorem hasText_of_cname {line : Json} (h : hasAttribute "cname" line = true) :
    hasText line = true := by
  unfold hasAttribute at h
  unfold hasText
  cases hfind : line.find "attribute" with
  | none =>
    rw [hfind] at h
    cases h
  | some text =>
    rw [hfind] at h
    cases text with
    | str s => rfl
    | _ => cases h

/-- The value of the first line that has an attribute. -/
theorem getCname_eq (offerMediaObject : Json) :
    getCname offerMediaObject =
      match firstAttribute offerMediaObject with
      | none => .ok ""
      | some line => line.read "value" >>= Json.toStr := by
  unfold getCname firstAttribute linesAt
  cases offerMediaObject.find "ssrcs" with
  | none => rfl
  | some mSsrcs =>
    simp only [Option.getD_some]
    change (match mSsrcs.elems.find? hasText with | none => _ | some _ => _) = _
    cases mSsrcs.elems.find? hasText with
    | none => rfl
    | some line => rfl

theorem getCname_none {offerMediaObject : Json} (h : firstAttribute offerMediaObject = none) :
    getCname offerMediaObject = .ok "" := by
  rw [getCname_eq, h]

theorem getCname_some {offerMediaObject line : Json} {cname : String}
    (h : firstAttribute offerMediaObject = some line) :
    getCname offerMediaObject = .ok cname ↔ line.find "value" = some (.str cname) := by
  rw [getCname_eq, h]
  constructor
  · intro hread
    obtain ⟨value, hvalue, htext⟩ := bind_ok.mp hread
    rw [Json.toStr_ok.mp htext] at hvalue
    exact Json.read_ok.mp hvalue
  · intro hvalue
    exact bind_ok.mpr ⟨_, Json.read_ok.mpr hvalue, rfl⟩

/-- Without an attribute there is no cname line either. -/
theorem firstCname_none {offerMediaObject : Json} (h : firstAttribute offerMediaObject = none) :
    firstCname offerMediaObject = none := by
  refine List.find?_eq_none.mpr fun line hline hcname => ?_
  exact List.find?_eq_none.mp h line hline (hasText_of_cname hcname)

theorem findsCname_iff (offerMediaObject : Json) :
    FindsCname offerMediaObject ↔ CnameFirst offerMediaObject := by
  cases hfirst : firstAttribute offerMediaObject with
  | none =>
    have hnone := firstCname_none hfirst
    refine iff_of_true ⟨"", getCname_none hfirst, fun line hline => ?_, iff_of_true rfl hnone⟩
      (Or.inl hfirst)
    rw [hnone] at hline
    cases hline
  | some first =>
    constructor
    · rintro ⟨text, htext, hvalue, hempty⟩
      refine Or.inr ⟨first, text, hfirst, (getCname_some hfirst).mp htext, ?_⟩
      cases hcname : firstCname offerMediaObject with
      | none => exact hempty.mpr hcname
      | some cnameLine =>
        refine ⟨fun hnil => ?_, hvalue cnameLine hcname⟩
        rw [hempty.mp hnil] at hcname
        cases hcname
    · rintro (hnone | ⟨line, text, hline, htext, hcname⟩)
      · cases hfirst.symm.trans hnone
      · refine ⟨text, (getCname_some hline).mpr htext, ?_⟩
        cases hfind : firstCname offerMediaObject with
        | none =>
          rw [hfind] at hcname
          exact ⟨fun _ h => (by cases h), iff_of_true hcname rfl⟩
        | some cnameLine =>
          rw [hfind] at hcname
          refine ⟨fun found hfound => ?_, iff_of_false hcname.1 (by simp)⟩
          rw [← Option.some.inj hfound]
          exact hcname.2

/-! ### What is reported -/

/-- The cname is a member of the parameters that are sent. -/
theorem sendRtpParam_cname {kind mid cname : String} {ext : ExtendedRtpCapabilities}
    {encodings : List Json} {params : Json}
    (h : sendRtpParam kind ext mid cname encodings = .ok params) :
    (params.find "rtcp").bind (·.find "cname") = some (.str cname) := by
  obtain ⟨sending, -, h⟩ := bind_ok.mp h
  obtain ⟨reduced, -, h⟩ := bind_ok.mp h
  obtain ⟨withMid, -, h⟩ := bind_ok.mp h
  obtain ⟨rtcp, -, h⟩ := bind_ok.mp h
  obtain ⟨withCname, hcname, h⟩ := bind_ok.mp h
  obtain ⟨withRtcp, hrtcp, hencodings⟩ := bind_ok.mp h
  have hkept : params.find "rtcp" = some withCname := by
    rw [Json.find_write hencodings, if_neg (by decide), Json.find_write hrtcp, if_pos rfl]
  rw [hkept, Option.bind_some, Json.find_write hcname, if_pos rfl]

theorem reports_iff {offerMediaObject : Json} {cname : String} :
    Reports offerMediaObject cname ↔ getCname offerMediaObject = .ok cname :=
  ⟨fun h => h.found, fun h => ⟨h, fun _ _ _ _ _ => sendRtpParam_cname⟩⟩

theorem firstAttribute_lines {offerMediaObject : Json} {lines : List Json}
    (h : offerMediaObject.find "ssrcs" = some (.arr lines)) :
    firstAttribute offerMediaObject = lines.find? hasText := by
  rw [firstAttribute, linesAt, h]
  rfl

/-- Every line that has an attribute comes first in some order. -/
theorem sameInEveryOrder_iff (lines : List Json) : SameInEveryOrder lines ↔ OneValue lines := by
  constructor
  · rintro ⟨cname, h⟩
    refine ⟨cname, fun line hline htext => ?_⟩
    obtain ⟨before, after, rfl⟩ := List.append_of_mem hline
    have hperm : (line :: (before ++ after)).Perm (before ++ line :: after) :=
      List.perm_middle.symm
    have hssrcs : (Json.obj [("ssrcs", .arr (line :: (before ++ after)))]).find "ssrcs" =
        some (.arr (line :: (before ++ after))) := rfl
    have hfirst := firstAttribute_lines hssrcs
    rw [List.find?_cons_of_pos htext] at hfirst
    exact (getCname_some hfirst).mp (h _ hperm _ hssrcs).found
  · rintro ⟨value, h⟩
    by_cases hnone : ∀ line ∈ lines, ¬ hasText line = true
    · refine ⟨"", fun lines' hperm media hssrcs => reports_iff.mpr (getCname_none ?_)⟩
      rw [firstAttribute_lines hssrcs]
      exact List.find?_eq_none.mpr fun line hline => hnone line (hperm.mem_iff.mp hline)
    · obtain ⟨other, hmem, htext⟩ : ∃ line ∈ lines, hasText line = true := by
        by_contra hno
        exact hnone fun line hline htext => hno ⟨line, hline, htext⟩
      refine ⟨value, fun lines' hperm media hssrcs => reports_iff.mpr ?_⟩
      obtain ⟨first, hfirst⟩ := Option.isSome_iff_exists.mp
        (List.find?_isSome.mpr ⟨other, hperm.mem_iff.mpr hmem, htext⟩)
      refine (getCname_some ((firstAttribute_lines hssrcs).trans hfirst)).mpr ?_
      exact h first (hperm.mem_iff.mp (List.mem_of_find?_eq_some hfirst)) (List.find?_some hfirst)

/-- CORRECT: the cname is found in a section exactly if no line has an attribute, or the first one that
    has carries the text of the first cname line (and nothing if there is no such line); and one cname
    is reported for lines in every order exactly if all that have an attribute have one value. -/
theorem cname_found_iff (offerMediaObject : Json) (lines : List Json) :
    (FindsCname offerMediaObject ↔ CnameFirst offerMediaObject) ∧
      (SameInEveryOrder lines ↔ OneValue lines) :=
  ⟨findsCname_iff offerMediaObject, sameInEveryOrder_iff lines⟩

/-! ### The lines of one ssrc -/

/-- `a=ssrc:1111 <name>:<value>` -/
def attributeLine (name value : String) : Json :=
  .object [("id", .int 1111), ("attribute", .str name), ("value", .str value)]

/-- With the msid in front of the cname, the msid is found; the other way round it is the cname. -/
theorem msid_found :
    ¬ FindsCname (.object [("ssrcs", .arr [attributeLine "msid" "stream track",
      attributeLine "cname" "name"])]) ∧
    ¬ SameInEveryOrder [attributeLine "cname" "name", attributeLine "msid" "stream track"] := by
  constructor
  · rintro ⟨cname, hcname, hvalue, -⟩
    have hmsid : getCname (.object [("ssrcs", .arr [attributeLine "msid" "stream track",
      attributeLine "cname" "name"])]) = .ok "stream track" := rfl
    rw [hmsid] at hcname
    cases hcname
    have hname := hvalue (attributeLine "cname" "name") rfl
    have hread : (attributeLine "cname" "name").find "value" = some (.str "name") := rfl
    rw [hread] at hname
    simp at hname
  · rintro ⟨cname, h⟩
    have hfirst := (h _ (List.Perm.refl _) (.object [("ssrcs", .arr [attributeLine "cname" "name",
      attributeLine "msid" "stream track"])]) rfl).found
    have hsecond := (h _ (List.Perm.swap _ _ _) (.object [("ssrcs", .arr [
      attributeLine "msid" "stream track", attributeLine "cname" "name"])]) rfl).found
    have hname : Except.ok (ε := Fault) "name" = .ok cname := hfirst
    have hmsid : Except.ok (ε := Fault) "stream track" = .ok cname := hsecond
    cases hname
    simp at hmsid

end MediasoupClient.Api
