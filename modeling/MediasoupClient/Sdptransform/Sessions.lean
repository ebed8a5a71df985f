import MediasoupClient.Sdptransform.Locations

/-! A session that is printed is read again.

        session  ──write──▶  v=0\r\n  s=-\r\n  ...  m=audio ...\r\n  a=mid:0\r\n  ...
                 ◀──parse──

    What is printed of no text has a line break in it, so the lines come back as they are. Those in
    front of the first `m=` are the session's, and from one `m=` to the next they are a section's.
    A session gets a `version` and a `name` where it has none; `payloads` that are empty do not come
    back. -/

namespace MediasoupClient.Sdptransform
open Lib Lib.Regex Sdp

variable {pf : Platform} {dump : Json → String}

/-! ### No line breaks -/

/-- A character that is neither in the format nor in a text is not printed. -/
theorem not_mem_fill {c : Char} {pre format : List Char} {args : List (List Char)}
    (hpre : c ∉ pre) (hformat : c ∉ format) (hargs : ∀ arg ∈ args, c ∉ arg) :
    c ∉ fill pre format args := by
  fun_induction fill pre format args with
  | case1 pre d format hd ih =>
    simp only [List.mem_cons, not_or] at hformat ⊢
    exact ⟨hformat.1, hformat.2.1, ih List.not_mem_nil hformat.2.2 hargs⟩
  | case2 pre d format hd arg args ih =>
    obtain ⟨harg, hargs⟩ := List.forall_mem_cons.mp hargs
    simp only [List.mem_cons, not_or] at hformat
    simp only [List.mem_append, not_or]
    refine ⟨hpre, ?_, ih List.not_mem_nil hformat.2.2 hargs⟩
    unfold placed
    split_ifs
    · exact fun h => hformat.1 (List.mem_singleton.mp h)
    · exact List.not_mem_nil
    · exact harg
  | case3 pre args d format hd ih =>
    simp only [List.mem_cons, not_or] at hformat
    refine ih ?_ ?_ hargs
    · simp only [List.mem_append, List.mem_singleton, not_or]
      exact ⟨hpre, hformat.1⟩
    · simp only [List.mem_cons, not_or]
      exact hformat.2
  | case4 pre args d format _ ih =>
    simp only [List.mem_cons, not_or] at hformat
    refine ih ?_ hformat.2 hargs
    simp only [List.mem_append, List.mem_singleton, not_or]
    exact ⟨hpre, hformat.1⟩
  | case5 => exact List.not_mem_nil

/-- No format has a line break. -/
def Format.plain (format : Format) : Prop := ∀ o, '\n' ∉ (format.choose o).toList

theorem plain_format {text : String} (h : '\n' ∉ text.toList) : (Format.format text).plain :=
  fun _ => h

theorem plain_ite {c : Bool} {a b : String} (ha : '\n' ∉ a.toList) (hb : '\n' ∉ b.toList) :
    '\n' ∉ (if c = true then a else b).toList := by
  split_ifs
  · exact ha
  · exact hb

theorem plain_append {a b : String} (ha : '\n' ∉ a.toList) (hb : '\n' ∉ b.toList) :
    '\n' ∉ (a ++ b).toList := by
  rw [String.toList_append, List.mem_append, not_or]
  exact ⟨ha, hb⟩

theorem plain_value {name pre : String} {p : Char → Bool} {type : ValueType}
    (h : '\n' ∉ pre.toList) : (valueRule name pre p type).format.plain := by
  intro o
  unfold valueRule Format.choose
  split_ifs <;> exact plain_append h (by decide)

theorem attributes_plain : ∀ rule ∈ attributeRules, rule.format.plain := by
  have hpair : ∀ {c : Bool} {a b : String}, '\n' ∉ a.toList ∧ '\n' ∉ b.toList →
      '\n' ∉ (if c = true then a else b).toList := fun h => plain_ite h.1 h.2
  have htext : ∀ {text : String}, '\n' ∉ text.toList → (Format.format text).plain := plain_format
  simp only [attributeRules, List.forall_mem_cons]
  exact ⟨fun _ => plain_ite (by decide) (hpair (by decide)), htext (by decide),
    plain_value (by decide), fun _ => hpair (by decide), htext (by decide),
    fun _ => hpair (by decide),
    fun _ => plain_append (plain_append (plain_append (plain_append (by decide)
      (hpair (by decide))) (hpair (by decide))) (by decide)) (hpair (by decide)),
    htext (by decide), fun _ => hpair (by decide), plain_value (by decide),
    plain_value (by decide), plain_value (by decide), plain_value (by decide),
    plain_value (by decide), htext (by decide), htext (by decide), plain_value (by decide),
    plain_value (by decide), htext (by decide),
    fun _ => plain_append (plain_append (plain_append (plain_append (plain_append (by decide)
      (hpair (by decide))) (hpair (by decide))) (hpair (by decide))) (hpair (by decide)))
      (hpair (by decide)),
    htext (by decide), plain_value (by decide), plain_value (by decide),
    fun _ => plain_append (by decide) (plain_ite (plain_append (by decide) (hpair (by decide)))
      (by decide)),
    htext (by decide), htext (by decide), htext (by decide), htext (by decide),
    htext (by decide), fun _ => hpair (by decide), htext (by decide), fun _ => hpair (by decide),
    fun _ => plain_append (by decide) (hpair (by decide)),
    fun _ => plain_append (by decide) (hpair (by decide)), htext (by decide), htext (by decide),
    htext (by decide), plain_value (by decide), plain_value (by decide), htext (by decide),
    fun _ h => absurd h List.not_mem_nil⟩

theorem rulesMap_plain {type : Char} {rule : Rule} (hrule : rule ∈ rulesMap type) :
    rule.format.plain := by
  have hpair : ∀ {c : Bool} {a b : String}, '\n' ∉ a.toList ∧ '\n' ∉ b.toList →
      '\n' ∉ (if c = true then a else b).toList := fun h => plain_ite h.1 h.2
  unfold rulesMap at hrule
  split at hrule <;> first
    | exact attributes_plain rule hrule
    | exact absurd hrule List.not_mem_nil
    | exact List.mem_singleton.mp hrule ▸ plain_format (by decide)
    | exact List.mem_singleton.mp hrule ▸ fun _ => hpair (by decide)

theorem oneLine_line {type : Char} {rule : Rule} (hrule : rule ∈ rulesMap type) {v : Json}
    {g : List (List Char)} (h : Prints pf dump rule v g) : '\n' ∉ rule.line v g :=
  not_mem_fill List.not_mem_nil (rulesMap_plain hrule v) h.oneLine

/-! ### The lines of the text -/

/-- A line with what the text ends it. -/
theorem split_printed {lines : List (Char × List Char)}
    (h : ∀ line ∈ lines, line.1.isLower = true ∧ '\n' ∉ line.2) :
    split (String.ofList (lines.flatMap printLine)) '\n' =
      lines.map fun line => String.ofList (line.1 :: '=' :: line.2 ++ ['\r']) := by
  rw [split, String.toList_ofList]
  induction lines with
  | nil => rfl
  | cons line lines ih =>
    obtain ⟨⟨htype, hcontent⟩, hlines⟩ := List.forall_mem_cons.mp h
    have hlower : '\n' ≠ line.1 := by
      intro heq
      rw [← heq] at htype
      cases htype
    have hfree : '\n' ∉ line.1 :: '=' :: line.2 ++ ['\r'] := by
      simp only [List.mem_append, List.mem_cons, List.not_mem_nil, or_false, not_or]
      exact ⟨⟨hlower, by decide, hcontent⟩, by decide⟩
    have hprint : printLine line ++ lines.flatMap printLine =
        (line.1 :: '=' :: line.2 ++ ['\r']) ++ '\n' :: lines.flatMap printLine := by
      rw [printLine, List.append_assoc, List.append_assoc]
      rfl
    rw [List.flatMap_cons, hprint, splitChars_append [] _ hfree, ih hlines, List.map_cons,
      List.nil_append]

theorem withoutCr_printed (t : List Char) : withoutCr (String.ofList (t ++ ['\r'])) = t := by
  rw [withoutCr, String.toList_ofList, if_pos List.getLast?_concat, List.dropLast_concat]

/-- The text is read line by line. -/
theorem store_printed {lines : List (Char × List Char)}
    (h : ∀ line ∈ lines, line.1.isLower = true ∧ '\n' ∉ line.2) :
    store pf (String.ofList (lines.flatMap printLine)) =
      (lines.foldlM (fun st line => storeLine pf st (line.1 :: '=' :: line.2)) ⟨[], []⟩).bind
        fun st => .ok (.obj (put "media" (.arr (st.media.reverse.map .obj)) st.session)) := by
  rw [store, split_printed h, List.foldlM_map]
  simp only [withoutCr_printed]
  rfl

theorem storeLine_section {type : Char} (htype : type.isLower = true) (hm : type ≠ 'm')
    (content : List Char) (session m : Members) (rest : List Members) :
    storeLine pf ⟨session, m :: rest⟩ (type :: '=' :: content) =
      (storeRules pf type content m).map fun m => ⟨session, m :: rest⟩ := by
  rw [storeLine, validLine, if_pos htype]
  simp only [if_neg hm]
  rfl

theorem storeLine_session {type : Char} (htype : type.isLower = true) (hm : type ≠ 'm')
    (content : List Char) (session : Members) :
    storeLine pf ⟨session, []⟩ (type :: '=' :: content) =
      (storeRules pf type content session).map fun session => ⟨session, []⟩ := by
  rw [storeLine, validLine, if_pos htype]
  simp only [if_neg hm]
  rfl

theorem storeLine_media (content : List Char) (st : Parsing) :
    storeLine pf st ('m' :: '=' :: content) =
      (storeRules pf 'm' content blankMedia).map fun m => { st with media := m :: st.media } := by
  rw [storeLine, validLine, if_pos (by decide)]
  rfl

/-- In front of the first section. -/
theorem foldlM_session (pf : Platform) {lines : List (Char × List Char)}
    (h : ∀ line ∈ lines, line.1.isLower = true ∧ line.1 ≠ 'm') (session : Members) :
    lines.foldlM (fun st line => storeLine pf st (line.1 :: '=' :: line.2)) ⟨session, []⟩ =
      (readLines pf lines session).map fun session => ⟨session, []⟩ :=
  foldlM_part (w := fun session => Parsing.mk session [])
    (fun line hline session => storeLine_session (h line hline).1 (h line hline).2 _ session) session

/-- Behind the line of a section. -/
theorem foldlM_section (pf : Platform) {lines : List (Char × List Char)}
    (h : ∀ line ∈ lines, line.1.isLower = true ∧ line.1 ≠ 'm') (session m : Members)
    (rest : List Members) :
    lines.foldlM (fun st line => storeLine pf st (line.1 :: '=' :: line.2)) ⟨session, m :: rest⟩ =
      (readLines pf lines m).map fun m => ⟨session, m :: rest⟩ :=
  foldlM_part (w := fun m => Parsing.mk session (m :: rest))
    (fun line hline m => storeLine_section (h line hline).1 (h line hline).2 _ session m rest) m

end MediasoupClient.Sdptransform
