import MediasoupClient.Sdptransform.Writer

/-! A line that is printed is read again as what it has been printed of.

        { payload: 111, codec: "opus", rate: 48000 }
            texts       [ "111", "opus", "48000", "" ]        one for each name, "" if there is none
            line        rtpmap:111 opus/48000
            groups      [ "111", "opus", "48000", "" ]

    For every rule: if each text is one that its group can hold (`Fits`), the groups of the line are
    the texts. Most rules print every text between the same delimiters that the expression asks for.
    Where one does not, the theorem says which members have to be there:

        candidates   a generation in front of network-id and network-cost, raddr in front of rport
        rtcp         an address with netType and ipVer
        ssrcs        an attribute
        ext          encrypt-uri, if the uri and a config look like one -/

namespace MediasoupClient.Sdptransform
open Lib Lib.Regex Sdp

variable {pf : Platform} {dump : Json → String} {o : Json} {g : List (List Char)}

/-! ### What is printed of an object -/

/-- A member with its text, which it is printed as and read from; none is the empty text. -/
def Holds (pf : Platform) (dump : Json → String) (type : ValueType) :
    Option Json → List Char → Prop
  | none, t => t = []
  | some v, t => t ≠ [] ∧ argText dump v = t ∧ toType pf t type = .ok v

/-- The texts of an object, by the names of a rule. -/
def Shows (pf : Platform) (dump : Json → String) (rule : Rule) (o : Json)
    (g : List (List Char)) : Prop :=
  List.Forall₂ (fun nt t => Holds pf dump nt.2 (o.find nt.1) t) (rule.names.zip rule.types) g

/-- What is read from a text is a number, or the text. -/
theorem toType_ok {t : List Char} {type : ValueType} {v : Json} (h : toType pf t type = .ok v) :
    v.isNumber = true ∨ v = .str (String.ofList t) := by
  cases type with
  | s =>
    cases h
    exact Or.inr rfl
  | u =>
    rw [toType] at h
    split at h <;> cases h <;> exact Or.inl rfl
  | d =>
    cases h
    exact Or.inl rfl
  | f =>
    rw [toType] at h
    split at h
    · split_ifs at h
      cases h
      exact Or.inl rfl
    · cases h
      exact Or.inl rfl

theorem Holds.hasValue {name : String} {type : ValueType} {t : List Char}
    (h : Holds pf dump type (o.find name) t) : hasValue o name = !t.isEmpty := by
  unfold Sdptransform.hasValue
  cases hv : o.find name with
  | none =>
    rw [hv] at h
    cases h
    rfl
  | some v =>
    rw [hv] at h
    obtain ⟨hne, -, hread⟩ := h
    rw [List.isEmpty_eq_false_iff.mpr hne]
    rcases toType_ok hread with hnum | rfl
    · cases v <;> first | rfl | cases hnum
    · refine decide_eq_true fun hs => hne ?_
      rw [← String.toList_ofList (l := t), hs, String.toList_empty]

/-- A text is stored as it is. -/
theorem Holds.text {member : Option Json} {text : String}
    (h : Holds pf dump .s member text.toList) (hne : text.toList ≠ []) :
    member = some (.str text) := by
  cases member with
  | none => exact absurd h hne
  | some v =>
    have hread : Json.str (String.ofList text.toList) = v := Except.ok.inj h.2.2
    rw [← hread, String.ofList_toList]

theorem holds_of_shows {rule : Rule} (h : Shows pf dump rule o g) (i : ℕ) (name : String)
    {type : ValueType} {t : List Char} (hname : (rule.names.zip rule.types)[i]? = some (name, type))
    (ht : g[i]? = some t) : Holds pf dump type (o.find name) t := by
  obtain ⟨hi, hname⟩ := List.getElem?_eq_some_iff.mp hname
  obtain ⟨hi', ht⟩ := List.getElem?_eq_some_iff.mp ht
  have hget := List.Forall₂.get h hi hi'
  rw [List.get_eq_getElem, List.get_eq_getElem, hname, ht] at hget
  exact hget

/-- A format looks whether there is a text. -/
theorem Shows.hasValue {rule : Rule} (h : Shows pf dump rule o g) (i : ℕ) (name : String)
    {type : ValueType} {t : List Char} (hname : (rule.names.zip rule.types)[i]? = some (name, type))
    (ht : g[i]? = some t) : hasValue o name = !t.isEmpty :=
  (holds_of_shows h i name hname ht).hasValue

theorem Holds.isSome {type : ValueType} {v : Option Json} {t : List Char}
    (h : Holds pf dump type v t) : v.isSome = !t.isEmpty := by
  cases v with
  | none =>
    cases h
    rfl
  | some v =>
    rw [List.isEmpty_eq_false_iff.mpr h.1]
    rfl

/-- The content of a line with these texts. -/
def Rule.line (rule : Rule) (o : Json) (g : List (List Char)) : List Char :=
  fill [] (rule.format.choose o).toList g

theorem line_format (rule : Rule) {text : String} (h : rule.format = .format text) :
    rule.line o g = fill [] text.toList g := by
  rw [Rule.line, h, Format.choose]

theorem line_formatFunc (rule : Rule) {f : Json → String} (h : rule.format = .formatFunc f) :
    rule.line o g = fill [] (f o).toList g := by
  rw [Rule.line, h, Format.choose]

theorem if_filled {α : Type} (c : Char) (cs : List Char) (a b : α) :
    (if (!(c :: cs).isEmpty) = true then a else b) = a := rfl

theorem if_blank {α : Type} (a b : α) :
    (if (!([] : List Char).isEmpty) = true then a else b) = b := rfl

/-- What stands in front of a placeholder is printed with it. -/
theorem fill_literal {cs : List Char} (h : '%' ∉ cs) (pre format : List Char)
    (args : List (List Char)) : fill pre (cs ++ format) args = fill (pre ++ cs) format args := by
  induction cs generalizing pre with
  | nil => rw [List.nil_append, List.append_nil]
  | cons c cs ih =>
    have hc : c ≠ '%' := fun hc => h (hc ▸ List.mem_cons_self ..)
    rw [List.cons_append, fill, ih fun hcs => h (List.mem_cons_of_mem c hcs), List.append_assoc,
      List.singleton_append]
    exact fun _ _ heq => absurd heq hc

theorem fill_placed (delimiter : String) (h : '%' ∉ delimiter.toList) {c : Char}
    (hc : c = 's' ∨ c = 'd') (format arg : List Char) (args : List (List Char)) :
    fill [] (delimiter.toList ++ '%' :: c :: format) (arg :: args) =
      delimiter.toList ++ (arg ++ fill [] format args) := by
  rw [fill_literal h, List.nil_append]
  rcases hc with rfl | rfl <;> rfl

/-- A part of a format that is there if its text is. -/
theorem fill_maybe (delimiter part : String) (h : part.toList = delimiter.toList ++ ['%', 's'] ∨
    part.toList = delimiter.toList ++ ['%', 'd']) (hd : '%' ∉ delimiter.toList)
    (t format : List Char) (args : List (List Char)) :
    fill [] ((if (!t.isEmpty) = true then part else "%v").toList ++ format) (t :: args) =
      maybe delimiter t ++ fill [] format args := by
  cases t with
  | nil =>
    rw [if_blank]
    rfl
  | cons c cs =>
    rw [if_filled, maybe, List.append_assoc]
    rcases h with h | h <;> rw [h, List.append_assoc]
    · exact fill_placed delimiter hd (Or.inl rfl) format (c :: cs) args
    · exact fill_placed delimiter hd (Or.inr rfl) format (c :: cs) args

/-- The same at the end of a format. -/
theorem fill_maybe_last (delimiter part absent : String)
    (h : part.toList = delimiter.toList ++ ['%', 's'] ∨
      part.toList = delimiter.toList ++ ['%', 'd']) (hd : '%' ∉ delimiter.toList)
    (habsent : fill [] absent.toList [[]] = []) (t : List Char) :
    fill [] (if (!t.isEmpty) = true then part else absent).toList [t] = maybe delimiter t := by
  cases t with
  | nil =>
    rw [if_blank, habsent]
    rfl
  | cons c cs =>
    have hlast : delimiter.toList ++ (c :: cs ++ fill [] [] []) = maybe delimiter (c :: cs) :=
      congrArg (delimiter.toList ++ ·) (List.append_nil (c :: cs))
    rw [if_filled]
    rcases h with h | h <;> rw [h]
    · exact (fill_placed delimiter hd (Or.inl rfl) [] (c :: cs) []).trans hlast
    · exact (fill_placed delimiter hd (Or.inr rfl) [] (c :: cs) []).trans hlast

/-- The rule matches at the begin of a line, also if it looks anywhere. -/
def Rule.Reads (rule : Rule) (content : List Char) (g : List (List Char)) : Prop :=
  ∃ rest, first rule.reg.body content = some (g, rest)

theorem reads_of_first {rule : Rule} {content rest : List Char}
    (h : first rule.reg.body content = some (g, rest)) : rule.Reads content g := ⟨rest, h⟩

theorem Rule.Reads.search {rule : Rule} {content : List Char} (h : rule.Reads content g) :
    rule.reg.search content = some g := by
  obtain ⟨rest, h⟩ := h
  unfold Reg.search
  split_ifs
  · rw [h, Option.map_some]
  · rw [leftmost_of_first h, Option.map_some]

/-- A text that is there, or not, has such characters only. -/
theorem chars_of {p : Char → Bool} {t : List Char} (h : t = [] ∨ Lang (.many p) t) :
    ∀ c ∈ t, p c = true := by
  rcases h with rfl | h
  · exact fun c hc => absurd hc List.not_mem_nil
  · exact lang_many.mp h

/-- The last field of a line. -/
theorem first_last {p : Char → Bool} {t : List Char} (h : ∀ c ∈ t, p c = true) :
    first (field p) (t ++ []) = some ([t], []) := first_field h rfl

/-! ### The rules of a session -/

theorem version_line (hg : versionRule.reg.body.Fits g) :
    versionRule.Reads (versionRule.line o g) g := by
  rcases hg with _ | ⟨h₁, _ | _⟩
  rename_i version
  have hline : versionRule.line o [version] = version ++ [] :=
    (line_format versionRule rfl).trans rfl
  rw [hline]
  exact reads_of_first <| first_field_then (lang_many.mp h₁) rfl first_eol

theorem origin_line (hg : originRule.reg.body.Fits g) :
    originRule.Reads (originRule.line o g) g := by
  rcases hg with _ | ⟨h₁, _ | ⟨h₂, _ | ⟨h₃, _ | ⟨h₄, _ | ⟨h₅, _ | ⟨h₆, _ | _⟩⟩⟩⟩⟩⟩
  rename_i username id version netType ipVer address
  have hline : originRule.line o [username, id, version, netType, ipVer, address] =
      username ++ (" ".toList ++ (id ++ (" ".toList ++ (version ++ (" ".toList ++ (netType ++
        (" IP".toList ++ (ipVer ++ (" ".toList ++ (address ++ [])))))))))) :=
    (line_format originRule rfl).trans rfl
  rw [hline]
  exact reads_of_first <| first_field_then (lang_many.mp h₁) rfl <| first_chars_then <|
    first_field_then (lang_many.mp h₂) rfl <| first_chars_then <|
    first_field_then (lang_many.mp h₃) rfl <| first_chars_then <|
    first_field_then (lang_many.mp h₄) rfl <| first_chars_then <| first_single_then h₅ <|
    first_chars_then <| first_last (lang_many.mp h₆)

theorem timing_line (hg : timingRule.reg.body.Fits g) :
    timingRule.Reads (timingRule.line o g) g := by
  rcases hg with _ | ⟨h₁, _ | ⟨h₂, _ | _⟩⟩
  rename_i start stop
  have hline : timingRule.line o [start, stop] = start ++ (" ".toList ++ (stop ++ [])) :=
    (line_format timingRule rfl).trans rfl
  rw [hline]
  exact reads_of_first <| first_field_then (lang_many.mp h₁) rfl <| first_chars_then <|
    first_last (lang_many.mp h₂)

theorem connection_line (ho : Shows pf dump connectionRule o g)
    (hg : connectionRule.reg.body.Fits g) :
    connectionRule.Reads (connectionRule.line o g) g := by
  rcases hg with _ | ⟨h₁, _ | ⟨h₂, _ | ⟨h₃, _ | _⟩⟩⟩
  rename_i version ip ttl
  have hline : connectionRule.line o [version, ip, ttl] = "IN IP".toList ++ (version ++
      (" ".toList ++ (ip ++ maybe "/" ttl))) := by
    rw [line_formatFunc connectionRule rfl, ho.hasValue 2 "ttl" rfl rfl]
    cases ttl with
    | nil => rfl
    | cons c cs =>
      rw [if_filled]
      change "IN IP".toList ++ (version ++ (" ".toList ++ (ip ++ ("/".toList ++
        (c :: cs ++ []))))) = _
      rw [List.append_nil]
      rfl
  rw [hline]
  have hstop : stops addressChar (maybe "/" ttl) = true := by
    cases ttl <;> rfl
  exact reads_of_first <| first_chars_then <| first_single_then h₁ <| first_chars_then <|
    first_field_then (lang_many.mp h₂) hstop <| first_maybe (by decide) (chars_of h₃)

theorem bandwidth_line (hg : bandwidthRule.reg.body.Fits g) :
    bandwidthRule.Reads (bandwidthRule.line o g) g := by
  rcases hg with _ | ⟨h₁, _ | ⟨h₂, _ | _⟩⟩
  rename_i type limit
  have hline : bandwidthRule.line o [type, limit] = type ++ (":".toList ++ (limit ++ [])) :=
    (line_format bandwidthRule rfl).trans rfl
  rw [hline]
  exact reads_of_first <| first_oneOf_then (by decide) (by decide) h₁ <| first_chars_then <|
    first_last (lang_many.mp h₂)

theorem media_line (ho : Shows pf dump mediaRule o g) (hg : mediaRule.reg.body.Fits g) :
    mediaRule.Reads (mediaRule.line o g) g := by
  rcases hg with _ | ⟨h₁, _ | ⟨h₂, _ | ⟨h₃, _ | ⟨h₄, _ | ⟨h₅, _ | _⟩⟩⟩⟩⟩
  rename_i type port numPorts protocol payloads
  have hline : mediaRule.line o [type, port, numPorts, protocol, payloads] =
      type ++ (" ".toList ++ (port ++ (maybe "/" numPorts ++ (" ".toList ++ (protocol ++
        (" ".toList ++ (payloads ++ []))))))) := by
    rw [line_formatFunc mediaRule rfl, ho.hasValue 2 "numPorts" rfl rfl]
    cases numPorts with
    | nil => rfl
    | cons c cs =>
      rw [if_filled]
      rfl
  rw [hline]
  -- the payloads are behind a blank, also if there are none
  exact reads_of_first <| first_field_then (lang_many.mp h₁) rfl <| first_chars_then <|
    first_field_then (lang_many.mp h₂) (by cases numPorts <;> rfl) <|
    first_maybe_then (chars_of h₃) rfl rfl <| first_chars_then <|
    first_field_then (lang_many.mp h₄) rfl <| first_opt <| first_chars_then <|
    first_last (chars_of h₅)

end MediasoupClient.Sdptransform
