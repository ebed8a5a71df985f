import MediasoupClient.Sdp.AnswerCodecs
import MediasoupClient.Sdp.AnswerSection

/-! The lines of generated sections (sdputil/MediaSection.cpp).

        codecs       96 VP8          97 rtx                 headerExtensions
                      │  │  │         │  │                        │
        rtp          96  │  │        97  │                        ▼
        fmtp             96 │            97                 ext, in an answer
        rtcpFb              96                              only those of the offer
        payloads     "96              97"

    Both constructors collect the lines in a loop over the codecs, and the payloads in another one.
    What ties them together is said of the codecs that the loop has seen so far. -/

namespace MediasoupClient.Sdp
open Lib

/-! ### Well-formed sections -/

/-- A payload as it stands in the line of the section. -/
def payloadText : Json → String
  | .int i => toString i
  | .uint n => toString n
  | _ => ""

/-- A parameter that a codec option sets in an answer. -/
def SetByOption (codecOptions : Option Json) (parameter : String × Json) : Prop :=
  ∃ options, codecOptions = some options ∧ ∃ o ∈ opusOptions ++ videoOptions, ∃ j,
    options.find o.name = some j ∧ o.value j = .ok parameter.2 ∧ o.answer = parameter.1

/-- Parameters that are a codec's own, but for what codec options set. -/
def ParametersOf (codecOptions : Option Json) (codec parameters : Json) : Prop :=
  ∀ parameter ∈ parameters.items,
    parameter ∈ ((codec.find "parameters").getD .null).items ∨ SetByOption codecOptions parameter

/-- The fmtp line of a codec. -/
def IsFmtpLine (codecOptions : Option Json) (codec line : Json) : Prop :=
  line.find "payload" = some (sentType codec) ∧ ∃ parameters,
    ParametersOf codecOptions codec parameters ∧
      line.find "config" = some (.str (fmtpConfig parameters))

/-- A feedback line of a codec. -/
def IsFeedbackLine (codec line : Json) : Prop :=
  line.find "payload" = some (sentType codec) ∧
    ∃ fb ∈ ((codec.find "rtcpFeedback").getD .null).elems,
      line.find "type" = some ((fb.find "type").getD .null) ∧
      line.find "subtype" = some ((fb.find "parameter").getD .null)

/-- The lines of a member of a section, if it has them. -/
def linesUnder (key : String) (s : MediaSection) : List Json :=
  ((s.mediaObject.get key).getD .null).elems

/-- The lines belong together: the payloads are those of the rtp lines, one for each codec in their
    order, and every other line is one of a codec. A section without media has none of them. -/
structure WellFormed (codecs : List Json) (codecOptions : Option Json) (kind : String)
    (s : MediaSection) : Prop where
  rtp : kind = "audio" ∨ kind = "video" →
    (linesUnder "rtp" s).map (·.find "payload") = codecs.map fun codec => some (sentType codec)
  payloads : kind = "audio" ∨ kind = "video" → s.mediaObject.get "payloads" =
    some (.str (" ".intercalate ((linesUnder "rtp" s).map fun line =>
      payloadText ((line.find "payload").getD .null))))
  fmtp : ∀ line ∈ linesUnder "fmtp" s, ∃ entry ∈ linesUnder "rtp" s,
    entry.find "payload" = line.find "payload" ∧ ∃ codec ∈ codecs, IsFmtpLine codecOptions codec line
  rtcpFb : ∀ line ∈ linesUnder "rtcpFb" s, ∃ entry ∈ linesUnder "rtp" s,
    entry.find "payload" = line.find "payload" ∧ ∃ codec ∈ codecs, IsFeedbackLine codec line

/-- Every extension of the section is one of the offered section. -/
def ExtensionsOffered (offerMediaObject : Json) (s : MediaSection) : Prop :=
  ∀ line ∈ linesUnder "ext" s, ∃ localExt ∈ ((offerMediaObject.find "ext").getD .null).elems,
    ∃ uri, line.find "uri" = some (.str uri) ∧ localExt.find "uri" = some (.str uri)

/-- The payload types that fit in an rtp header. -/
def PayloadTypesFit (codecs : List Json) : Prop :=
  ∀ codec ∈ codecs, ∃ n : ℕ, n ≤ 127 ∧ (sentType codec = .int n ∨ sentType codec = .uint n)

/-! ### The loop over the codecs -/

/-- The lines of the codecs that have been seen, whose parameters are printed as `Par` says. -/
structure LinesOf (Par : Json → Json → Prop) (seen : List Json) (lines : RtpLines) : Prop where
  rtp : List.Forall₂ (fun codec line => line.find "payload" = some (sentType codec)) seen
    lines.rtp
  fmtp : ∀ line ∈ lines.fmtp, ∃ codec ∈ seen, line.find "payload" = some (sentType codec) ∧
    ∃ parameters, Par codec parameters ∧ line.find "config" = some (.str (fmtpConfig parameters))
  rtcpFb : ∀ line ∈ lines.rtcpFb, ∃ codec ∈ seen, IsFeedbackLine codec line

theorem LinesOf.nil {Par : Json → Json → Prop} : LinesOf Par [] {} :=
  ⟨.nil, fun _ h => absurd h List.not_mem_nil, fun _ h => absurd h List.not_mem_nil⟩

section
variable {access : Json → String → Except Fault Json}

/-- Both accesses give the member, if they give anything. -/
def Accesses (access : Json → String → Except Fault Json) : Prop :=
  ∀ {j v : Json} {key : String}, access j key = .ok v → v = (j.find key).getD .null

theorem read_accesses : Accesses Json.read := by
  intro j v key h
  rw [Json.read_ok.mp h]
  rfl

theorem readOrNull_accesses : Accesses Json.readOrNull := Json.readOrNull_ok

theorem rtpLine_payload (ha : Accesses access) {codec rtp : Json}
    (h : rtpLine access codec = .ok rtp) : rtp.find "payload" = some (sentType codec) := by
  obtain ⟨payload, hpayload, h⟩ := bind_ok.mp h
  obtain ⟨name, -, h⟩ := bind_ok.mp h
  obtain ⟨rate, -, h⟩ := bind_ok.mp h
  rw [sentType, ← ha hpayload]
  cases hch : codec.find "channels" with
  | none =>
    rw [hch] at h
    cases h
    simp [Json.object, Json.find, get_put]
  | some channels =>
    rw [hch] at h
    obtain ⟨n, -, h⟩ := bind_ok.mp h
    cases h
    split_ifs
    · simp [Json.object, Json.find, get_put]
    · simp [Json.object, Json.find, get_put]

/-- The lines of one more codec. -/
theorem LinesOf.codec {Par : Json → Json → Prop} {seen : List Json} {lines lines' : RtpLines}
    (hinv : LinesOf Par seen lines) (ha : Accesses access) {codec rtp parameters : Json}
    (hrtp : rtpLine access codec = .ok rtp) (hpar : Par codec parameters)
    (h : codecLines access lines rtp codec parameters = .ok lines') :
    LinesOf Par (seen ++ [codec]) lines' := by
  have hself : codec ∈ seen ++ [codec] := List.mem_append_right _ (List.mem_singleton.mpr rfl)
  have hold : ∀ {c : Json}, c ∈ seen → c ∈ seen ++ [codec] := fun hc => List.mem_append_left _ hc
  obtain ⟨payload, hpayload, h⟩ := bind_ok.mp h
  obtain ⟨feedback, hfeedback, h⟩ := bind_ok.mp h
  obtain ⟨rtcpFb, hfb, h⟩ := bind_ok.mp h
  have hpt : payload = sentType codec := ha hpayload
  cases h
  refine ⟨?_, fun line hline => ?_, fun line hline => ?_⟩
  · exact List.rel_append hinv.rtp (.cons (rtpLine_payload ha hrtp) .nil)
  · rcases List.mem_append.mp hline with hline | hline
    · obtain ⟨c, hc, hrest⟩ := hinv.fmtp line hline
      exact ⟨c, hold hc, hrest⟩
    · split_ifs at hline with hempty
      · exact absurd hline List.not_mem_nil
      · obtain rfl := List.mem_singleton.mp hline
        refine ⟨codec, hself, ?_, parameters, hpar, ?_⟩
        · simp [Json.object, Json.find, get_put, hpt]
        · simp [Json.object, Json.find, get_put]
  · rcases List.mem_append.mp hline with hline | hline
    · obtain ⟨c, hc, hrest⟩ := hinv.rtcpFb line hline
      exact ⟨c, hold hc, hrest⟩
    · obtain ⟨fb, hmem, hturn⟩ := mem_of_forall₂ (mapM_ok hfb) hline
      obtain ⟨type, htype, hturn⟩ := bind_ok.mp hturn
      obtain ⟨subtype, hsubtype, hturn⟩ := bind_ok.mp hturn
      cases hturn
      refine ⟨codec, hself, ?_, fb, ?_, ?_, ?_⟩
      · simp [Json.object, Json.find, get_put, hpt]
      · rwa [← ha hfeedback]
      · rw [← ha htype]
        simp [Json.object, Json.find, get_put]
      · rw [← ha hsubtype]
        simp [Json.object, Json.find, get_put]

/-- A loop in which every turn adds the element to what has been seen. -/
theorem foldlM_sees {ε α β : Type} {f : β → α → Except ε β} {I : List α → β → Prop} {xs : List α}
    (hstep : ∀ {seen b x b'}, x ∈ xs → I seen b → f b x = .ok b' → I (seen ++ [x]) b')
    (seen : List α) {b r : β} (hb : I seen b) (h : xs.foldlM f b = .ok r) : I (seen ++ xs) r := by
  induction xs generalizing seen b with
  | nil =>
    cases h
    rwa [List.append_nil]
  | cons x xs ih =>
    rw [List.foldlM_cons] at h
    obtain ⟨b₁, hb₁, h⟩ := bind_ok.mp h
    have hnext := hstep (List.mem_cons_self ..) hb hb₁
    have hrest := ih (fun hx => hstep (List.mem_cons_of_mem _ hx)) _ hnext h
    rwa [List.append_assoc] at hrest

/-- A payload type that fits, as the loop over the payloads reads it. -/
theorem toUInt_fits {v : Json} {n : ℕ} (hn : n ≤ 127) (hv : v = .int n ∨ v = .uint n) :
    v.toUInt 8 = .ok n ∧ payloadText v = toString n := by
  rcases hv with rfl | rfl
  · refine ⟨?_, rfl⟩
    have hmod : ((n : ℤ) % 2 ^ 8).toNat = n := by omega
    rw [Json.toUInt, hmod]
  · refine ⟨?_, rfl⟩
    rw [Json.toUInt, Nat.mod_eq_of_lt (by omega)]

/-- The payloads are joined. -/
theorem payloadsLine_eq (ha : Accesses access) {codecs : List Json} (hfit : PayloadTypesFit codecs)
    {payloads : String} (h : payloadsLine access codecs = .ok payloads) :
    payloads = " ".intercalate (codecs.map fun codec => payloadText (sentType codec)) := by
  have hne : ∀ codec ∈ codecs, payloadText (sentType codec) ≠ "" := by
    intro codec hc
    obtain ⟨n, hn, hv⟩ := hfit codec hc
    rw [(toUInt_fits hn hv).2]
    exact Nat.repr_ne_empty
  have hturn : ∀ codec ∈ codecs, ∀ acc : String, (do
      let payloadType ← (← access codec "payloadType").toUInt 8
      return (if acc = "" then "" else acc ++ " ") ++ toString payloadType : Except Fault String) =
        .ok ((if acc = "" then "" else acc ++ " ") ++ payloadText (sentType codec)) := by
    intro codec hc acc
    obtain ⟨_, _, hstep⟩ := foldlM_steps h codec hc
    obtain ⟨v, hv, -⟩ := bind_ok.mp hstep
    obtain ⟨n, hn, hfits⟩ := hfit codec hc
    have hsent : v = sentType codec := ha hv
    obtain ⟨hread, htext⟩ := toUInt_fits hn hfits
    rw [hv, ok_bind, hsent, hread, htext]
    rfl
  have hjoin := foldl_join " " hne
  have hloop : payloadsLine access codecs = .ok _ := foldlM_eq_foldl hturn ""
  rw [hjoin, h] at hloop
  exact Except.ok.inj hloop

end

/-! ### The loop of an offer -/

theorem offerLines {Par : Json → Json → Prop} {codecs : List Json} {lines : RtpLines}
    (hpar : ∀ codec parameters, codec.find "parameters" = some parameters → Par codec parameters)
    (h : codecs.foldlM offerCodec {} = .ok lines) : LinesOf Par codecs lines := by
  refine foldlM_sees (I := LinesOf Par) (fun {seen b codec b'} _ hinv hturn => ?_) [] .nil h
  obtain ⟨rtp, hrtp, hturn⟩ := bind_ok.mp hturn
  obtain ⟨parameters, hparameters, hturn⟩ := bind_ok.mp hturn
  exact hinv.codec read_accesses hrtp (hpar codec parameters (Json.read_ok.mp hparameters)) hturn

/-! ### The loop of an answer -/

theorem mem_items_write {j j' v : Json} {key : String} (h : j.write key v = .ok j')
    {item : String × Json} (hi : item ∈ j'.items) : item ∈ j.items ∨ item = (key, v) := by
  cases j with
  | obj m =>
    cases h
    exact (mem_put hi).symm
  | null =>
    cases h
    exact Or.inr (List.mem_singleton.mp hi)
  | _ => cases h

/-- One option sets one parameter. -/
theorem applyOption_items {options : Json} {st st' : Json × Json} {o : CodecOption}
    (ho : o ∈ opusOptions ++ videoOptions) (h : applyOption options st o = .ok st')
    {item : String × Json} (hi : item ∈ st'.1.items) :
    item ∈ st.1.items ∨ SetByOption (some options) item := by
  unfold applyOption at h
  cases hj : options.find o.name with
  | none =>
    rw [hj] at h
    cases h
    exact Or.inl hi
  | some j =>
    rw [hj] at h
    obtain ⟨v, hv, h⟩ := bind_ok.mp h
    have hwritten : ∃ offerCodec parameters, st.1.write o.answer v = .ok parameters ∧
        st' = (parameters, offerCodec) := by
      cases hoffer : o.offer with
      | none =>
        simp only [hoffer] at h
        obtain ⟨offerCodec, -, h⟩ := bind_ok.mp h
        obtain ⟨parameters, hwrite, h⟩ := bind_ok.mp h
        cases h
        exact ⟨offerCodec, parameters, hwrite, rfl⟩
      | some key =>
        simp only [hoffer] at h
        obtain ⟨_, -, h⟩ := bind_ok.mp h
        obtain ⟨_, -, h⟩ := bind_ok.mp h
        obtain ⟨offerCodec, -, h⟩ := bind_ok.mp h
        obtain ⟨parameters, hwrite, h⟩ := bind_ok.mp h
        cases h
        exact ⟨offerCodec, parameters, hwrite, rfl⟩
    obtain ⟨offerCodec, parameters, hwrite, rfl⟩ := hwritten
    refine (mem_items_write hwrite hi).imp_right ?_
    rintro rfl
    exact ⟨options, rfl, o, ho, j, hj, hv, rfl⟩

theorem mem_optionsOf {mimeType : String} {o : CodecOption} (h : o ∈ optionsOf mimeType) :
    o ∈ opusOptions ++ videoOptions := by
  unfold optionsOf at h
  split_ifs at h
  · exact List.mem_append_left _ h
  · exact List.mem_append_right _ h
  · exact absurd h List.not_mem_nil

/-- The options set nothing but their parameters. -/
theorem applyOptions_items {options codec parameters offer : Json} {r : Json × Json}
    (h : applyOptions options codec parameters offer = .ok r) {item : String × Json}
    (hi : item ∈ r.1.items) : item ∈ parameters.items ∨ SetByOption (some options) item := by
  obtain ⟨offerCodecs, -, h⟩ := bind_ok.mp h
  obtain ⟨payloadType, -, h⟩ := bind_ok.mp h
  obtain ⟨idx, -, h⟩ := bind_ok.mp h
  cases idx with
  | none => cases h
  | some idx =>
    obtain ⟨_, -, h⟩ := bind_ok.mp h
    obtain ⟨mimeType, -, h⟩ := bind_ok.mp h
    obtain ⟨st, hst, h⟩ := bind_ok.mp h
    obtain ⟨_, -, h⟩ := bind_ok.mp h
    cases h
    have hloop : ∀ (os : List CodecOption) {st st' : Json × Json},
        (∀ o ∈ os, o ∈ opusOptions ++ videoOptions) → os.foldlM (applyOption options) st = .ok st' →
        item ∈ st'.1.items → item ∈ st.1.items ∨ SetByOption (some options) item := by
      intro os
      induction os with
      | nil =>
        intro st st' _ hrun hi
        cases hrun
        exact Or.inl hi
      | cons o os ih =>
        intro st st' hos hrun hi
        obtain ⟨ho, hos⟩ := List.forall_mem_cons.mp hos
        rw [List.foldlM_cons] at hrun
        obtain ⟨st₁, hst₁, hrun⟩ := bind_ok.mp hrun
        rcases ih hos hrun hi with hmem | hset
        · exact applyOption_items ho hst₁ hmem
        · exact Or.inr hset
    exact hloop _ (fun o ho => mem_optionsOf ho) hst hi

theorem answerLines {codecOptions : Option Json} {offer : Json} {codecs : List Json}
    {r : RtpLines × Json} (h : answerCodecs codecOptions offer codecs = .ok r) :
    LinesOf (ParametersOf codecOptions) codecs r.1 := by
  refine foldlM_sees (I := fun seen st => LinesOf (ParametersOf codecOptions) seen st.1)
    (fun {seen st codec st'} _ hinv hturn => ?_) [] .nil h
  obtain ⟨rtp, hrtp, hturn⟩ := bind_ok.mp hturn
  obtain ⟨own, hown, hturn⟩ := bind_ok.mp hturn
  have hown' : own = (codec.find "parameters").getD .null := readOrNull_accesses hown
  -- the parameters that are printed, and the lines that are added
  have hprinted : ∃ parameters, codecLines Json.readOrNull st.1 rtp codec parameters = .ok st'.1 ∧
      ∀ parameter ∈ parameters.items, parameter ∈ own.items ∨
        SetByOption codecOptions parameter := by
    cases codecOptions with
    | none =>
      obtain ⟨_, hpure, hturn⟩ := bind_ok.mp hturn
      cases hpure
      obtain ⟨lines, hlines, hturn⟩ := bind_ok.mp hturn
      cases hturn
      exact ⟨own, hlines, fun _ hmem => Or.inl hmem⟩
    | some options =>
      simp only at hturn
      split_ifs at hturn
      · obtain ⟨_, hpure, hturn⟩ := bind_ok.mp hturn
        cases hpure
        obtain ⟨lines, hlines, hturn⟩ := bind_ok.mp hturn
        cases hturn
        exact ⟨own, hlines, fun _ hmem => Or.inl hmem⟩
      · obtain ⟨applied, happlied, hturn⟩ := bind_ok.mp hturn
        obtain ⟨lines, hlines, hturn⟩ := bind_ok.mp hturn
        cases hturn
        exact ⟨applied.1, hlines, fun _ hmem => applyOptions_items happlied hmem⟩
  obtain ⟨parameters, hlines, hparameters⟩ := hprinted
  refine hinv.codec readOrNull_accesses hrtp ?_ hlines
  intro parameter hmem
  rw [← hown']
  exact hparameters parameter hmem

/-! ### The sections -/

/-- The lines of a body that starts with those of the codecs. -/
theorem get_mediaLines (m : StdMap String Json) (direction : String) (lines : RtpLines)
    (payloads : String) (ext : List Json) {rest : List (String × Json)}
    (hrest : ∀ kv ∈ rest, kv.1 ∉ ["rtp", "fmtp", "rtcpFb", "payloads", "ext"]) :
    ∀ kv ∈ [("rtp", Json.arr lines.rtp), ("fmtp", .arr lines.fmtp), ("rtcpFb", .arr lines.rtcpFb),
        ("payloads", .str payloads), ("ext", .arr ext)],
      (assign m (mediaLines direction lines payloads ext ++ rest)).get kv.1 = some kv.2 := by
  intro kv hkv
  have hkey : kv.1 ∈ ["rtp", "fmtp", "rtcpFb", "payloads", "ext"] :=
    List.mem_map_of_mem (f := Prod.fst) hkv
  have hkeep : (assign m (mediaLines direction lines payloads ext ++ rest)).get kv.1 =
      (assign m (mediaLines direction lines payloads ext)).get kv.1 := by
    rw [assign, List.foldl_append, ← assign, ← assign]
    exact get_assign fun kv' hkv' heq => hrest kv' hkv' (heq ▸ hkey)
  rw [hkeep]
  simp only [List.mem_cons, List.not_mem_nil, or_false] at hkv
  rcases hkv with rfl | rfl | rfl | rfl | rfl <;> simp [mediaLines, assign, StdMap.get_insert]

/-- A section whose lines are those of the codecs. -/
theorem LinesOf.wellFormed {codecOptions : Option Json} {codecs : List Json} {lines : RtpLines}
    (hinv : LinesOf (ParametersOf codecOptions) codecs lines) {s : MediaSection}
    (hrtp : s.mediaObject.get "rtp" = some (.arr lines.rtp))
    (hfmtp : s.mediaObject.get "fmtp" = some (.arr lines.fmtp))
    (hrtcpFb : s.mediaObject.get "rtcpFb" = some (.arr lines.rtcpFb))
    (hpayloads : s.mediaObject.get "payloads" =
      some (.str (" ".intercalate (codecs.map fun codec => payloadText (sentType codec)))))
    (kind : String) : WellFormed codecs codecOptions kind s := by
  have hentries : linesUnder "rtp" s = lines.rtp := by rw [linesUnder, hrtp]; rfl
  have hpts : lines.rtp.map (·.find "payload") = codecs.map fun codec => some (sentType codec) :=
    (map_eq_of_forall₂ (hinv.rtp.imp fun _ _ h => h.symm)).symm
  -- a line with the payload of a codec has that of the rtp line of this codec
  have hnamed : ∀ {codec line : Json}, codec ∈ codecs → line.find "payload" = some (sentType codec) →
      ∃ entry ∈ lines.rtp, entry.find "payload" = line.find "payload" := by
    intro codec line hc hline
    obtain ⟨entry, hentry, hpayload⟩ := mem_of_forall₂ hinv.rtp.flip hc
    exact ⟨entry, hentry, hpayload.trans hline.symm⟩
  refine ⟨fun _ => by rw [hentries, hpts], fun _ => ?_, fun line hline => ?_, fun line hline => ?_⟩
  · have htexts : (lines.rtp.map fun line => payloadText ((line.find "payload").getD .null)) =
        codecs.map fun codec => payloadText (sentType codec) := by
      have hmap := congrArg (List.map fun o : Option Json => payloadText (o.getD .null)) hpts
      simpa [List.map_map, Function.comp_def] using hmap
    rw [hpayloads, hentries, htexts]
  · rw [linesUnder, hfmtp] at hline
    obtain ⟨codec, hc, hpayload, hconfig⟩ := hinv.fmtp line hline
    rw [hentries]
    obtain ⟨entry, hentry, heq⟩ := hnamed hc hpayload
    exact ⟨entry, hentry, heq, codec, hc, hpayload, hconfig⟩
  · rw [linesUnder, hrtcpFb] at hline
    obtain ⟨codec, hc, hpayload, hfb⟩ := hinv.rtcpFb line hline
    rw [hentries]
    obtain ⟨entry, hentry, heq⟩ := hnamed hc hpayload
    exact ⟨entry, hentry, heq, codec, hc, hpayload, hfb⟩

/-- A section with such a body. -/
theorem LinesOf.built {codecOptions : Option Json} {codecs : List Json} {lines : RtpLines}
    (hinv : LinesOf (ParametersOf codecOptions) codecs lines) {m : StdMap String Json} {body : Body}
    {direction payloads : String} {ext : List Json} {rest : List (String × Json)}
    (hbody : body.assignments = mediaLines direction lines payloads ext ++ rest)
    (hrest : ∀ kv ∈ rest, kv.1 ∉ ["rtp", "fmtp", "rtcpFb", "payloads", "ext"])
    (hpayloads : payloads = " ".intercalate (codecs.map fun codec => payloadText (sentType codec)))
    {s : MediaSection} (hs : s.mediaObject = assign m body.assignments) (kind : String) :
    WellFormed codecs codecOptions kind s ∧ linesUnder "ext" s = ext := by
  have hget := get_mediaLines m direction lines payloads ext hrest
  rw [← hbody, ← hs] at hget
  simp only [List.forall_mem_cons] at hget
  obtain ⟨hrtp, hfmtp, hrtcpFb, hline, hext, -⟩ := hget
  refine ⟨hinv.wellFormed hrtp hfmtp hrtcpFb (by rw [hline, hpayloads]) kind, ?_⟩
  rw [linesUnder, hext]
  rfl

/-- A section without media has no lines. -/
theorem wellFormed_of_none {codecs : List Json} {codecOptions : Option Json} {kind : String}
    {s : MediaSection} (hkind : ¬ (kind = "audio" ∨ kind = "video"))
    (hfmtp : s.mediaObject.get "fmtp" = none) (hrtcpFb : s.mediaObject.get "rtcpFb" = none) :
    WellFormed codecs codecOptions kind s := by
  refine ⟨fun hc => absurd hc hkind, fun hc => absurd hc hkind, fun line hline => ?_,
    fun line hline => ?_⟩
  · rw [linesUnder, hfmtp] at hline
    exact absurd hline List.not_mem_nil
  · rw [linesUnder, hrtcpFb] at hline
    exact absurd hline List.not_mem_nil

/-- A body of another type says nothing of the lines of media. -/
theorem get_sctp_other {sctpParameters : Json} {body : Body} (h : sctpBody sctpParameters = .ok body)
    (m : StdMap String Json) {key : String} (hkey : key ∈ ["fmtp", "rtcpFb", "ext"]) :
    (assign m body.assignments).get key = m.get key := by
  obtain ⟨port, -, h⟩ := bind_ok.mp h
  obtain ⟨size, -, h⟩ := bind_ok.mp h
  cases h
  refine get_assign fun kv hkv heq => ?_
  simp only [List.mem_cons, List.not_mem_nil, or_false] at hkv hkey
  rw [← heq] at hkey
  rcases hkv with rfl | rfl | rfl <;> simp at hkey

/-- Nor does what comes before it. -/
theorem other_lines_none {iceParameters iceCandidates : Json} {base : StdMap String Json}
    (hbase : MediaSection.base iceParameters iceCandidates = .ok base) (mid type protocol : Json)
    (setup : Option String) {sctpParameters : Json} {body : Body}
    (hbody : sctpBody sctpParameters = .ok body ∨ body = .empty) {key : String}
    (hkey : key ∈ ["fmtp", "rtcpFb", "ext"]) :
    (assign (MediaSection.header base mid type protocol setup) body.assignments).get key = none := by
  have hheader : key ∉ headerKeys := by
    simp only [List.mem_cons, List.not_mem_nil, or_false] at hkey
    rcases hkey with rfl | rfl | rfl <;> decide
  have hnone := get_header_other hbase hheader mid type protocol setup
  rcases hbody with hsctp | rfl
  · exact (get_sctp_other hsctp _ hkey).trans hnone
  · exact hnone

theorem offer_wellFormed {params : Json} (hfit : PayloadTypesFit (codecsOf params))
    {iceParameters iceCandidates sctpParameters : Json} {mid kind streamId trackId : String}
    {s : MediaSection} (h : offerMediaSection iceParameters iceCandidates sctpParameters mid kind
      params streamId trackId = .ok s) : WellFormed (codecsOf params) none kind s := by
  obtain ⟨base, hbase, h⟩ := bind_ok.mp h
  obtain ⟨body, hbody, h⟩ := bind_ok.mp h
  cases h
  unfold offerBody at hbody
  by_cases hmedia : kind = "audio" ∨ kind = "video"
  · rw [if_pos hmedia] at hbody
    obtain ⟨codecs, lines, payloads, ext, ssrcs, ssrcGroups, hcodecs, hlines, hpayloads, rfl⟩ :=
      offerMedia_ok hbody
    have hof : codecs.elems = codecsOf params := by rw [codecsOf, hcodecs, Option.getD_some]
    rw [hof] at hlines hpayloads
    have hinv : LinesOf (ParametersOf none) (codecsOf params) lines := by
      refine offerLines (fun codec parameters hparameters parameter hmem => Or.inl ?_) hlines
      rwa [hparameters]
    exact (hinv.built (List.append_assoc ..) (by simp [rtcpLines])
      (payloadsLine_eq read_accesses hfit hpayloads) rfl kind).1
  · rw [if_neg hmedia] at hbody
    have hother : sctpBody sctpParameters = .ok body ∨ body = .empty := by
      split_ifs at hbody
      · exact Or.inl hbody
      · cases hbody
        exact Or.inr rfl
    exact wellFormed_of_none hmedia (other_lines_none hbase _ _ _ _ hother (by simp))
      (other_lines_none hbase _ _ _ _ hother (by simp))

/-! ### The extensions of an answer -/

theorem eq_of_eqv_str {v : Json} {s : String} (h : v.eqv (.str s) = true) : v = .str s := by
  cases v with
  | str t => rw [eq_of_beq (h : (t == s) = true)]
  | _ => cases h

/-- A validated header extension has a uri. -/
theorem headerExtension_uri {e e' : Json} (h : validateRtpHeaderExtensionParameters e = .ok e') :
    ∃ uri, e'.find "uri" = some (.str uri) := by
  cases e with
  | obj m =>
    obtain ⟨_, huri, h⟩ := bind_ok.mp h
    obtain ⟨_, -, h⟩ := bind_ok.mp h
    simp only [get_orDefault_parameters] at h
    obtain ⟨_, -, h⟩ := bind_ok.mp h
    cases h
    obtain ⟨v, hv, htext⟩ := has_iff.mp (require_ok.mp huri)
    obtain ⟨uri, rfl⟩ := isText_str htext
    refine ⟨uri, ?_⟩
    change get "uri" _ = _
    rw [get_orDefault, if_neg fun hc => absurd hc.1 (by decide), get_orDefault,
      if_neg fun hc => absurd hc.1 (by decide), hv]
  | _ => cases h

/-- The extensions that are kept are those of the offered section. -/
theorem answerExt_offered {offer : Json} {exts out : List Json}
    (huri : ∀ ext ∈ exts, ∃ uri, ext.find "uri" = some (.str uri))
    (h : answerExt offer exts = .ok out) :
    ∀ line ∈ out, ∃ localExt ∈ ((offer.find "ext").getD .null).elems,
      ∃ uri, line.find "uri" = some (.str uri) ∧ localExt.find "uri" = some (.str uri) := by
  refine foldlM_sees (I := fun _ out => ∀ line ∈ out,
    ∃ localExt ∈ ((offer.find "ext").getD .null).elems,
      ∃ uri, line.find "uri" = some (.str uri) ∧ localExt.find "uri" = some (.str uri))
    (f := extStep offer) (fun {_ acc ext acc'} hmem hinv hturn => ?_) []
    (fun line hline => absurd hline List.not_mem_nil) h
  obtain ⟨uri, hext⟩ := huri ext hmem
  obtain ⟨localExts, hlocal, hturn⟩ := bind_ok.mp hturn
  obtain ⟨idx, hidx, hturn⟩ := bind_ok.mp hturn
  cases idx with
  | none =>
    cases hturn
    exact hinv
  | some idx =>
    rw [readOrNull_of_find hext] at hturn
    obtain ⟨_, huri', hturn⟩ := bind_ok.mp hturn
    cases huri'
    obtain ⟨id, -, hturn⟩ := bind_ok.mp hturn
    cases hturn
    intro line hline
    rcases List.mem_append.mp hline with hold | hnew
    · exact hinv line hold
    · obtain rfl := List.mem_singleton.mp hnew
      obtain ⟨localExt, hget, hsame⟩ := findIdx_get hidx
      refine ⟨localExt, ?_, uri, by simp [Json.object, Json.find, get_put], ?_⟩
      · rw [Json.read_ok.mp hlocal]
        exact List.mem_of_getElem? hget
      · obtain ⟨u, hu, hsame⟩ := bind_ok.mp hsame
        rw [readOrNull_of_find hext] at hsame
        rw [Json.read_ok.mp hu, eq_of_eqv_str (Except.ok.inj hsame)]

/-! ### Both constructors -/

theorem map_touched {codecs : List Json} (h : ∀ codec ∈ codecs, codec.isObject = true) :
    codecs.map Json.touched = codecs := by
  refine (List.map_congr_left fun codec hc => ?_).trans (List.map_id codecs)
  have hobj := h codec hc
  cases codec with
  | obj m => rfl
  | _ => cases hobj

/-- What stands behind the lines of the codecs in an answer. -/
theorem answer_rest (lines : RtpLines) (payloads : String) (ext : List Json) (mixed : Bool)
    (simulcast : Option (Json × List Json)) :
    ∃ rest, (Body.answer lines payloads ext mixed simulcast).assignments =
        mediaLines "recvonly" lines payloads ext ++ rest ∧
      ∀ kv ∈ rest, kv.1 ∉ ["rtp", "fmtp", "rtcpFb", "payloads", "ext"] := by
  cases simulcast with
  | none =>
    refine ⟨(if mixed then [("extmapAllowMixed", .str "extmap-allow-mixed")] else []) ++ rtcpLines,
      ?_, ?_⟩
    · cases mixed <;> rfl
    · cases mixed <;> simp [rtcpLines]
  | some simulcast =>
    obtain ⟨list1, rids⟩ := simulcast
    refine ⟨(if mixed then [("extmapAllowMixed", .str "extmap-allow-mixed")] else []) ++
      ([("simulcast", Json.object [("dir1", .str "recv"), ("list1", list1)]), ("rids", .arr rids)] ++
        rtcpLines), ?_, ?_⟩
    · cases mixed <;> rfl
    · cases mixed <;> simp [rtcpLines]

/-- The parts of an answered section of media. -/
theorem answerMedia_ok {offer offerRtpParameters valid : Json} {codecOptions : Option Json}
    {body : Body} {o : Json}
    (h : answerMedia offer offerRtpParameters valid codecOptions = .ok (body, o)) :
    ∃ codecs lines o' payloads exts ext mixed simulcast, valid.readOrNull "codecs" = .ok codecs ∧
      answerCodecs codecOptions offerRtpParameters (codecs.elems.map Json.touched) =
        .ok (lines, o') ∧
      payloadsLine Json.readOrNull (codecs.elems.map Json.touched) = .ok payloads ∧
      valid.readOrNull "headerExtensions" = .ok exts ∧ answerExt offer exts.elems = .ok ext ∧
      body = .answer lines payloads ext mixed simulcast := by
  obtain ⟨codecs, hcodecs, h⟩ := bind_ok.mp h
  obtain ⟨⟨lines, o'⟩, hlines, h⟩ := bind_ok.mp h
  obtain ⟨payloads, hpayloads, h⟩ := bind_ok.mp h
  obtain ⟨exts, hexts, h⟩ := bind_ok.mp h
  obtain ⟨ext, hext, h⟩ := bind_ok.mp h
  obtain ⟨simulcast, -, h⟩ := bind_ok.mp h
  cases h
  exact ⟨codecs, lines, _, payloads, exts, ext, _, simulcast, hcodecs, hlines, hpayloads, hexts,
    hext, rfl⟩

/-- Reading a member of a validated codec does not turn it into an object: it is one. -/
theorem codecs_touched {params valid codecs : Json} (hv : validateRtpParameters params = .ok valid)
    (h : valid.readOrNull "codecs" = .ok codecs) :
    codecs.elems.map Json.touched = codecsOf valid := by
  rw [readOrNull_accesses h]
  refine map_touched fun codec hc => ?_
  obtain ⟨items, hget, hall⟩ := (validateRtpParameters_normal hv).codecs
  rw [hget] at hc
  obtain ⟨parameters, hparameters, -⟩ := (hall codec hc).parameters
  cases codec with
  | obj m => rfl
  | _ => cases hparameters

theorem headerExtensions_uri {params valid exts : Json}
    (hv : validateRtpParameters params = .ok valid)
    (h : valid.readOrNull "headerExtensions" = .ok exts) :
    ∀ e ∈ exts.elems, ∃ uri, e.find "uri" = some (.str uri) := by
  intro e he
  obtain ⟨_, params', -, rfl, hok⟩ := validateRtpParameters_ok hv
  obtain ⟨_, exts', -, hmap, hget⟩ := hok.headerExtensions
  have hexts : exts = ((Json.obj params').find "headerExtensions").getD .null :=
    readOrNull_accesses h
  have hmem : e ∈ exts' := by
    rw [hexts, show (Json.obj params').find "headerExtensions" = _ from hget] at he
    exact he
  obtain ⟨_, -, hval⟩ := mem_of_forall₂ (mapM_ok hmap) hmem
  exact headerExtension_uri hval

theorem answer_wellFormed {params valid : Json} (hv : validateRtpParameters params = .ok valid)
    (hfit : PayloadTypesFit (codecsOf valid))
    {iceParameters iceCandidates dtlsParameters sctpParameters offer offerRtpParameters : Json}
    {codecOptions : Option Json} {s : MediaSection} {o : Json} {type : String}
    (htype : offer.find "type" = some (.str type))
    (h : answerMediaSection iceParameters iceCandidates dtlsParameters sctpParameters offer
      offerRtpParameters valid codecOptions = .ok (s, o)) :
    WellFormed (codecsOf valid) codecOptions type s ∧ ExtensionsOffered offer s := by
  obtain ⟨base, hbase, h⟩ := bind_ok.mp h
  obtain ⟨jtype, hjtype, h⟩ := bind_ok.mp h
  obtain ⟨type', htype', h⟩ := bind_ok.mp h
  obtain ⟨mid, -, h⟩ := bind_ok.mp h
  obtain ⟨protocol, -, h⟩ := bind_ok.mp h
  obtain ⟨jrole, -, h⟩ := bind_ok.mp h
  obtain ⟨role, -, h⟩ := bind_ok.mp h
  obtain ⟨⟨body, o'⟩, hbody, h⟩ := bind_ok.mp h
  cases h
  obtain rfl : type' = type := by
    rw [Json.read_ok, htype] at hjtype
    cases hjtype
    exact (Json.str.inj (Json.toStr_ok.mp htype')).symm
  unfold answerBody at hbody
  by_cases hmedia : type' = "audio" ∨ type' = "video"
  · rw [if_pos hmedia] at hbody
    obtain ⟨codecs, lines, _, payloads, exts, ext, mixed, simulcast, hcodecs, hlines, hpayloads,
      hexts, hext, rfl⟩ := answerMedia_ok hbody
    rw [codecs_touched hv hcodecs] at hlines hpayloads
    obtain ⟨rest, hassignments, hrest⟩ := answer_rest lines payloads ext mixed simulcast
    obtain ⟨hwell, hline⟩ := (answerLines hlines).built hassignments hrest
      (payloadsLine_eq readOrNull_accesses hfit hpayloads) (s := MediaSection.build .answer base mid
        (.str type') protocol (MediaSection.setupOf role) (.answer lines payloads ext mixed simulcast))
      rfl type'
    refine ⟨hwell, ?_⟩
    unfold ExtensionsOffered
    rw [hline]
    exact answerExt_offered (headerExtensions_uri hv hexts) hext
  · rw [if_neg hmedia] at hbody
    have hbody : sctpBody sctpParameters = .ok body ∨ body = .empty := by
      split_ifs at hbody
      · obtain ⟨body', hsctp, hbody⟩ := bind_ok.mp hbody
        cases hbody
        exact Or.inl hsctp
      · cases hbody
        exact Or.inr rfl
    have hother := fun {key : String} (hkey : key ∈ ["fmtp", "rtcpFb", "ext"]) =>
      other_lines_none hbase mid (.str type') protocol (MediaSection.setupOf role) hbody hkey
    refine ⟨wellFormed_of_none hmedia (hother (by simp)) (hother (by simp)), ?_⟩
    have hext : linesUnder "ext" (MediaSection.build .answer base mid (.str type') protocol
        (MediaSection.setupOf role) body) = [] := by
      rw [linesUnder, show (MediaSection.build .answer base mid (.str type') protocol
        (MediaSection.setupOf role) body).mediaObject.get "ext" = _ from hother (by simp)]
      rfl
    unfold ExtensionsOffered
    rw [hext]
    exact fun line hline => absurd hline List.not_mem_nil

/-- CORRECT: the lines of every section that is generated belong together, and an answer has no
    extension that the offered section has not. -/
theorem sections_wellFormed {params valid : Json} (hv : validateRtpParameters params = .ok valid)
    (hfit : PayloadTypesFit (codecsOf valid)) :
    (∀ iceParameters iceCandidates sctpParameters mid kind streamId trackId s,
      offerMediaSection iceParameters iceCandidates sctpParameters mid kind valid streamId trackId =
        .ok s → WellFormed (codecsOf valid) none kind s) ∧
    ∀ iceParameters iceCandidates dtlsParameters sctpParameters offer offerRtpParameters codecOptions
      type s o, offer.find "type" = some (.str type) →
      answerMediaSection iceParameters iceCandidates dtlsParameters sctpParameters offer
        offerRtpParameters valid codecOptions = .ok (s, o) →
        WellFormed (codecsOf valid) codecOptions type s ∧ ExtensionsOffered offer s :=
  ⟨fun _ _ _ _ _ _ _ _ h => offer_wellFormed hfit h,
    fun _ _ _ _ _ _ _ _ _ _ htype h => answer_wellFormed hv hfit htype h⟩

/-- Parameters of one codec, with a parameter, a feedback and a header extension. -/
def opusRtpParameters : Json := Json.object [
  ("codecs", .arr [Json.object [("mimeType", .str "audio/opus"), ("payloadType", .int 111),
    ("clockRate", .int 48000), ("channels", .int 2),
    ("parameters", Json.object [("useinbandfec", .int 1)]),
    ("rtcpFeedback", .arr [Json.object [("type", .str "nack"), ("parameter", .str "")]])]]),
  ("headerExtensions", .arr [Json.object [("uri", .str "urn:mid"), ("id", .int 1),
    ("encrypt", .bool false), ("parameters", .obj [])]]),
  ("encodings", .arr [Json.object [("ssrc", .int 1), ("dtx", .bool false)]]),
  ("rtcp", Json.object [("reducedSize", .bool true)])]

/-- The offered section they are answered with. -/
def opusOffer : Json := Json.object [("type", .str "audio"), ("mid", .str "0"),
  ("protocol", .str "UDP/TLS/RTP/SAVPF"),
  ("ext", .arr [Json.object [("uri", .str "urn:mid"), ("value", .int 4)]])]

def iceUser : Json := Json.object [("usernameFragment", .str "u"), ("password", .str "p")]

theorem sections_wellFormed_opus :
    (∃ s, offerMediaSection iceUser (.arr []) .null "0" "audio" opusRtpParameters "s" "t" = .ok s ∧
      WellFormed (codecsOf opusRtpParameters) none "audio" s) ∧
    ∃ s o, answerMediaSection iceUser (.arr []) (Json.object [("role", .str "auto")]) .null opusOffer
        opusRtpParameters opusRtpParameters (some (Json.object [("opusStereo", .bool true)])) =
          .ok (s, o) ∧
      WellFormed (codecsOf opusRtpParameters) (some (Json.object [("opusStereo", .bool true)]))
        "audio" s ∧ ExtensionsOffered opusOffer s := by
  have hfit : PayloadTypesFit (codecsOf opusRtpParameters) := by
    intro codec hcodec
    obtain rfl := List.mem_singleton.mp hcodec
    exact ⟨111, by decide, Or.inl rfl⟩
  have hvalid : validateRtpParameters opusRtpParameters = .ok opusRtpParameters := rfl
  obtain ⟨hoffer, hanswer⟩ := sections_wellFormed hvalid hfit
  obtain ⟨s, hs⟩ : ∃ s, offerMediaSection iceUser (.arr []) .null "0" "audio" opusRtpParameters
      "s" "t" = .ok s := ⟨_, rfl⟩
  obtain ⟨r, hr⟩ : ∃ r, answerMediaSection iceUser (.arr []) (Json.object [("role", .str "auto")])
      .null opusOffer opusRtpParameters opusRtpParameters
      (some (Json.object [("opusStereo", .bool true)])) = .ok r := ⟨_, rfl⟩
  exact ⟨⟨s, hs, hoffer _ _ _ _ _ _ _ _ hs⟩, r.1, r.2, hr, hanswer _ _ _ _ _ _ _ _ _ _ rfl hr⟩

end MediasoupClient.Sdp
