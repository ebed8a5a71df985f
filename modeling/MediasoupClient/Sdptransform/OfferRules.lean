import MediasoupClient.Sdptransform.CapabilityRules

/-! The other rules that an answer is made with are those of the grammar as well.

        simulcast:send 1,2recv 3        the lists are 1,2 and 3: the second direction need not have
                                        a blank in front, and a list may have the letters of one

    Here a shorter token can help. The expression of simulcast has one way to match all the same, as
    a list has no blank: what is behind the last blank is the second list, and the direction is in
    front of it. -/

namespace MediasoupClient.Sdptransform
open Lib Lib.Regex Sdp

variable {content : List Char} {g : List (List Char)}

theorem mid_same : SameReads midReg midRule := by
  refine sameReads (fun content groups h => ?_) (fun u g rest hu => ?_) rfl
  · obtain ⟨r₁, h₁, h⟩ := Option.bind_eq_some_iff.mp h
    cases h
    obtain rfl := literal_some h₁
    exact ⟨_, reads_of_first (first_chars_then (first_field_any nonSpace r₁)), rfl⟩
  · obtain ⟨w, rfl, -⟩ := reads_chars_then hu
    simp only [midReg, List.append_assoc, literal_append, Option.bind_eq_bind, Option.bind_some]
    exact Option.some_ne_none _

theorem mixed_same : SameReads extmapAllowMixedReg extmapAllowMixedRule := by
  refine sameReads (fun content groups h => ?_) (fun u g rest hu => ?_) rfl
  · obtain ⟨r₁, h₁, h⟩ := Option.bind_eq_some_iff.mp h
    cases h
    obtain rfl := literal_some h₁
    exact ⟨_, reads_of_first (first_group (first_chars "extmap-allow-mixed".toList r₁)), rfl⟩
  · obtain ⟨-, hlang⟩ := reads_group rfl hu
    rw [lang_chars.mp hlang]
    simp only [extmapAllowMixedReg, literal_append, Option.bind_eq_bind, Option.bind_some]
    exact Option.some_ne_none _

theorem takeWhile_ne_nil {p : Char → Bool} {s : List Char}
    (h : (token p s).1 ≠ "") : s.takeWhile p ≠ [] := by
  intro hnil
  refine h ?_
  rw [token, hnil]

theorem rids_same : SameReads ridReg ridsRule := by
  refine sameReads (fun content groups h => ?_) (fun u g rest hu => ?_) rfl
  · obtain ⟨r₁, h₁, h⟩ := Option.bind_eq_some_iff.mp h
    obtain ⟨r₂, h₂, h⟩ := Option.bind_eq_some_iff.mp h
    dsimp only at h
    split_ifs at h with hempty
    obtain ⟨hid, hdirection⟩ := not_or.mp hempty
    cases h
    obtain rfl := literal_some h₁
    have hblank : r₁.dropWhile isWord = " ".toList ++ r₂ := literal_some h₂
    obtain ⟨rest, hrest⟩ := first_spaced dot (r₂.dropWhile isWord)
    have htail : first (concat [lit " ", .group (many1 isWord), opt (concat [lit " ", field dot])])
        (r₁.dropWhile isWord) = some ([r₂.takeWhile isWord,
          (spaced dot (r₂.dropWhile isWord)).toList], rest) := by
      rw [hblank]
      exact first_chars_then (first_token1 (takeWhile_ne_nil hdirection) hrest)
    refine ⟨_, reads_of_first (first_chars_then (first_token1 (takeWhile_ne_nil hid) htail)), ?_⟩
    rw [dot_eq]
    simp only [List.map_cons, List.map_nil, String.ofList_toList]
    rfl
  · obtain ⟨w₁, rfl, h₁⟩ := reads_chars_then hu
    obtain ⟨id, w₂, g₂, rfl, -, hid, h₂⟩ := reads_group_then rfl h₁
    obtain ⟨w₃, rfl, h₃⟩ := reads_chars_then h₂
    obtain ⟨direction, w₄, g₄, rfl, -, hdirection, -⟩ := reads_group_then rfl h₃
    obtain ⟨hidne, hidword⟩ := lang_many1.mp hid
    obtain ⟨hdirne, hdirword⟩ := lang_many1.mp hdirection
    obtain ⟨c, cs, rfl⟩ := List.exists_cons_of_ne_nil hdirne
    have hstop : stops isWord (" ".toList ++ (c :: cs ++ (w₄ ++ rest))) = true := rfl
    have hdirtoken : (token isWord (c :: cs ++ (w₄ ++ rest))).1 ≠ "" := by
      refine ofList_ne_empty ?_
      rw [List.cons_append, List.takeWhile_cons_of_pos (hdirword c (List.mem_cons_self ..))]
      exact List.cons_ne_nil _ _
    have hne : ¬ (String.ofList id = "" ∨ (token isWord (c :: cs ++ (w₄ ++ rest))).1 = "") :=
      not_or.mpr ⟨ofList_ne_empty hidne, hdirtoken⟩
    simp only [ridReg, List.append_assoc, literal_append, Option.bind_eq_bind, Option.bind_some,
      token_append hidword hstop, if_neg hne]
    exact Option.some_ne_none _

/-! ### Simulcast -/

theorem sendOrRecv_append {direction : List Char} (h : Lang (anyOf ["send", "recv"]) direction)
    (rest : List Char) :
    sendOrRecv (direction ++ (" ".toList ++ rest)) = some (String.ofList direction, rest) := by
  obtain ⟨text, ht, rfl⟩ := (lang_anyOf (by decide)).mp h
  simp only [List.mem_cons, List.not_mem_nil, or_false] at ht
  rcases ht with rfl | rfl
  · have hliteral : literal "send " ("send".toList ++ (" ".toList ++ rest)) = some rest :=
      literal_append "send " rest
    rw [sendOrRecv, hliteral]
    rfl
  · have hliteral : literal "recv " ("recv".toList ++ (" ".toList ++ rest)) = some rest :=
      literal_append "recv " rest
    have hnone : literal "send " ("recv".toList ++ (" ".toList ++ rest)) = none := by
      rw [Option.eq_none_iff_forall_ne_some]
      intro rest' h
      exact absurd (List.cons.inj (literal_some h)).1 (by decide)
    rw [sendOrRecv, hliteral, hnone]
    rfl

/-- Characters of a list are no blanks. -/
theorem listChar_not_space {c : Char} (h : isListChar c = true) : isSpace c = false := by
  have hcode : 14 ≤ c.toNat ∧ c ≠ ' ' := by
    rcases (Bool.or_eq_true ..).mp h with h | h
    · delta Char.isAlphanum Char.isAlpha Char.isUpper Char.isLower Char.isDigit at h
      simp only [Bool.or_eq_true, Bool.and_eq_true, decide_eq_true_eq, ge_iff_le,
        UInt32.le_iff_toNat_le] at h
      refine ⟨?_, fun hblank => ?_⟩
      · have hcode : c.toNat = c.val.toNat := rfl
        have hupper : 'A'.val.toNat = 65 := rfl
        have hlower : 'a'.val.toNat = 97 := rfl
        have hdigit : '0'.val.toNat = 48 := rfl
        omega
      · rw [hblank] at h
        exact absurd h (by decide)
    · rw [decide_eq_true_eq] at h
      simp only [List.mem_cons, List.not_mem_nil, or_false] at h
      rcases h with rfl | rfl | rfl | rfl | rfl <;> decide
  simp only [isSpace, Bool.or_eq_false_iff, decide_eq_false_iff_not]
  exact ⟨hcode.2, fun hcontrol => by omega⟩

/-- One list. -/
theorem simulcastLists_one {list : List Char} (h : Lang (many1 isListChar) list) :
    simulcastLists list = some [String.ofList list, "", ""] := by
  obtain ⟨hne, hall⟩ := lang_many1.mp h
  rw [simulcastLists, if_pos (List.all_eq_true.mpr hall), if_neg hne]

/-- What is in front of the second direction, read from behind: a blank there is not of the list. -/
def frontList : List Char → List Char
  | c :: list => if isSpace c then list else c :: list
  | [] => []

theorem frontList_space {list₁ space : List Char} (h₁ : Lang (many1 isListChar) list₁)
    (hspace : Lang (opt (.char isSpace)) space) :
    frontList (space.reverse ++ list₁.reverse) = list₁.reverse := by
  obtain ⟨hne, hall⟩ := lang_many1.mp h₁
  rcases lang_alt.mp hspace with hspace | hspace
  · obtain ⟨c, rfl, hc⟩ := lang_char.mp hspace
    exact if_pos hc
  · rw [lang_chars.mp hspace, List.reverse_nil, List.nil_append]
    cases hlist : list₁.reverse with
    | nil => exact absurd (List.reverse_eq_nil_iff.mp hlist) hne
    | cons c list =>
      have hc : isListChar c = true :=
        hall c (List.mem_reverse.mp (hlist ▸ List.mem_cons_self ..))
      exact if_neg (Bool.eq_false_iff.mp (listChar_not_space hc))

/-- Two lists, with or without a blank in front of the second direction. -/
theorem simulcastLists_two {list₁ space direction list₂ : List Char}
    (h₁ : Lang (many1 isListChar) list₁) (hspace : Lang (opt (.char isSpace)) space)
    (hdirection : Lang (anyOf ["send", "recv"]) direction) (h₂ : Lang (many1 isListChar) list₂) :
    simulcastLists (list₁ ++ (space ++ (direction ++ (" ".toList ++ list₂)))) =
      some [String.ofList list₁, String.ofList direction, String.ofList list₂] := by
  obtain ⟨hne₁, hall₁⟩ := lang_many1.mp h₁
  obtain ⟨hne₂, hall₂⟩ := lang_many1.mp h₂
  have hbehind : ∀ c ∈ list₂.reverse, isListChar c = true := fun c hc =>
    hall₂ c (List.mem_reverse.mp hc)
  have hreverse : (list₁ ++ (space ++ (direction ++ (" ".toList ++ list₂)))).reverse =
      list₂.reverse ++ ' ' :: (direction.reverse ++ (space.reverse ++ list₁.reverse)) := by
    simp
  have hblank : isListChar ' ' = false := by decide
  have hall : (list₁ ++ (space ++ (direction ++ (" ".toList ++ list₂)))).all isListChar = false := by
    rw [List.all_eq_false]
    exact ⟨' ', by simp, by rw [hblank]; decide⟩
  rw [simulcastLists, hall, if_neg Bool.false_ne_true]
  simp only [hreverse, List.takeWhile_append_of_pos hbehind, List.dropWhile_append_of_pos hbehind,
    List.takeWhile_cons_of_neg (Bool.eq_false_iff.mp hblank),
    List.dropWhile_cons_of_neg (Bool.eq_false_iff.mp hblank), List.append_nil,
    List.reverse_reverse]
  obtain ⟨text, ht, rfl⟩ := (lang_anyOf (by decide)).mp hdirection
  have hfront := frontList_space h₁ hspace
  have hall : list₁.reverse.all isListChar = true :=
    List.all_eq_true.mpr fun c hc => hall₁ c (List.mem_reverse.mp hc)
  have hnil : list₁.reverse ≠ [] := fun h => hne₁ (List.reverse_eq_nil_iff.mp h)
  have hcond : frontList (space.reverse ++ list₁.reverse) ≠ [] ∧
      (frontList (space.reverse ++ list₁.reverse)).all isListChar = true ∧ list₂ ≠ [] := by
    rw [hfront]
    exact ⟨hnil, hall, hne₂⟩
  have hlist : String.ofList (frontList (space.reverse ++ list₁.reverse)).reverse =
      String.ofList list₁ := by rw [hfront, List.reverse_reverse]
  simp only [List.mem_cons, List.not_mem_nil, or_false] at ht
  rcases ht with rfl | rfl
  · exact (if_pos ⟨by decide, hcond⟩).trans (by rw [← hlist]; rfl)
  · exact (if_pos ⟨by decide, hcond⟩).trans (by rw [← hlist]; rfl)

/-- The engine's match, by the hand-written expression. -/
theorem simulcast_reads (h : simulcastRule.reg.body.Reads content g) :
    simulcastReg content = some (g.map String.ofList) := by
  obtain ⟨w₁, rfl, h₁⟩ := reads_chars_then h
  obtain ⟨dir₁, w₂, g₂, rfl, rfl, hdir₁, h₂⟩ := reads_group_then (groups_anyOf _) h₁
  obtain ⟨w₃, rfl, h₃⟩ := reads_chars_then h₂
  obtain ⟨list₁, w₄, g₄, rfl, rfl, hlist₁, h₄⟩ := reads_group_then rfl h₃
  obtain ⟨v, w₅, g₅, g₆, rfl, rfl, hv, hend⟩ := reads_seq h₄
  cases hend with
  | eol =>
  have hlists : simulcastLists (list₁ ++ v) =
      some ((list₁ :: g₅).map String.ofList) := by
    rcases reads_opt hv with hv | ⟨rfl, rfl⟩
    · obtain ⟨space, w₆, g₇, g₈, rfl, rfl, hspace, h₆⟩ := reads_seq hv
      obtain ⟨dir₂, w₇, g₉, rfl, rfl, hdir₂, h₇⟩ := reads_group_then (groups_anyOf _) h₆
      obtain ⟨list₂, rfl, h₈⟩ := reads_chars_then h₇
      obtain ⟨rfl, hlist₂⟩ := reads_group rfl h₈
      obtain rfl : g₇ = [] := List.length_eq_zero_iff.mp hspace.length
      exact simulcastLists_two hlist₁ ⟨_, hspace⟩ hdir₂ hlist₂
    · rw [List.append_nil]
      exact simulcastLists_one hlist₁
  simp only [simulcastReg, List.append_nil, literal_append, Option.bind_eq_bind, Option.bind_some,
    sendOrRecv_append hdir₁, hlists]
  rfl

theorem lang_of_sendOrRecv {direction : String} {rest : List Char}
    (h : sendOrRecv content = some (direction, rest)) :
    ∃ d, content = d ++ (" ".toList ++ rest) ∧ Lang (anyOf ["send", "recv"]) d := by
  unfold sendOrRecv at h
  split at h
  · rename_i rest' hsend
    cases h
    exact ⟨"send".toList, (literal_some hsend).trans rfl,
      (lang_anyOf (by decide)).mpr ⟨"send", by decide, rfl⟩⟩
  · rename_i rest' _ hrecv
    cases h
    exact ⟨"recv".toList, (literal_some hrecv).trans rfl,
      (lang_anyOf (by decide)).mpr ⟨"recv", by decide, rfl⟩⟩
  · cases h

theorem frontList_split (front : List Char) : ∃ space,
    front.reverse = (frontList front).reverse ++ space ∧ Lang (opt (.char isSpace)) space := by
  have hnone : Lang (opt (.char isSpace)) [] := lang_alt.mpr (Or.inr (lang_chars.mpr rfl))
  cases front with
  | nil => exact ⟨[], rfl, hnone⟩
  | cons c front =>
    by_cases hc : isSpace c = true
    · rw [frontList, if_pos hc, List.reverse_cons]
      exact ⟨[c], rfl, lang_alt.mpr (Or.inl (lang_char.mpr ⟨c, rfl, hc⟩))⟩
    · rw [frontList, if_neg hc]
      exact ⟨[], (List.append_nil _).symm, hnone⟩

/-- Lists that the one finds are lists of the expression. -/
theorem lang_of_simulcastLists {groups : List String} (h : simulcastLists content = some groups) :
    Lang (concat [listField, opt (concat [opt (.char isSpace), oneOf ["send", "recv"], lit " ",
      listField]), .eol]) content := by
  unfold simulcastLists at h
  split_ifs at h with hall hnil
  · have hlist : Lang (many1 isListChar) content :=
      lang_many1.mpr ⟨hnil, List.all_eq_true.mp hall⟩
    exact lang_seq.mpr ⟨content, [], (List.append_nil _).symm, lang_group.mpr hlist,
      lang_seq.mpr ⟨[], [], rfl, lang_alt.mpr (Or.inr (lang_chars.mpr rfl)), lang_eol.mpr rfl⟩⟩
  · simp only at h
    split at h
    · rename_i c₄ c₃ c₂ c₁ front hdrop
      split_ifs at h with hfound
      obtain ⟨hdirection, hne, hfront, hne₂⟩ := hfound
      have hne : frontList front ≠ [] := hne
      have hfront : (frontList front).all isListChar = true := hfront
      have hlist₁ : Lang (many1 isListChar) (frontList front).reverse :=
        lang_many1.mpr ⟨fun hnil => hne (List.reverse_eq_nil_iff.mp hnil),
          fun c hc => List.all_eq_true.mp hfront c (List.mem_reverse.mp hc)⟩
      have hlist₂ : Lang (many1 isListChar) (content.reverse.takeWhile isListChar).reverse :=
        lang_many1.mpr ⟨hne₂, fun c hc => List.mem_takeWhile_imp (List.mem_reverse.mp hc)⟩
      have hdir : Lang (anyOf ["send", "recv"]) [c₁, c₂, c₃, c₄] :=
        (lang_anyOf (by decide)).mpr ⟨_, hdirection, String.toList_ofList.symm⟩
      obtain ⟨space, hspace, hblank⟩ := frontList_split front
      have hsplit : content.reverse =
          content.reverse.takeWhile isListChar ++ ' ' :: c₄ :: c₃ :: c₂ :: c₁ :: front := by
        rw [← hdrop]
        exact List.takeWhile_append_dropWhile.symm
      have hcontent : content = (frontList front).reverse ++ (space ++ ([c₁, c₂, c₃, c₄] ++
          (" ".toList ++ (content.reverse.takeWhile isListChar).reverse))) := by
        have hreverse := congrArg List.reverse hsplit
        rw [List.reverse_reverse] at hreverse
        refine hreverse.trans ?_
        rw [← List.append_assoc, ← hspace]
        simp
      exact lang_seq.mpr ⟨_, _, hcontent, lang_group.mpr hlist₁, lang_seq.mpr ⟨_, [],
        (List.append_nil _).symm, lang_alt.mpr (Or.inl (lang_seq.mpr ⟨_, _, rfl, hblank,
          lang_seq.mpr ⟨_, _, rfl, lang_group.mpr hdir, lang_seq.mpr ⟨_, _, rfl,
            lang_chars.mpr rfl, lang_group.mpr hlist₂⟩⟩⟩)), lang_eol.mpr rfl⟩⟩
    · cases h

theorem simulcast_same : SameReads simulcastReg simulcastRule := by
  intro content
  cases hsearch : simulcastRule.reg.search content with
  | some g =>
    obtain ⟨⟨g', rest⟩, hfirst, rfl⟩ := Option.map_eq_some_iff.mp hsearch
    obtain rfl : rest = [] :=
      rest_of_endsLine (r := simulcastRule.reg.body) rfl (List.mem_of_head? hfirst)
    obtain ⟨u, rfl, hu⟩ := first_reads hfirst
    rw [List.append_nil, simulcast_reads hu, Option.map_some]
  | none =>
    -- a line that the one reads is one that the engine does not overlook
    rw [Option.map_none, Option.eq_none_iff_forall_ne_some]
    intro groups h
    obtain ⟨r₁, h₁, h⟩ := Option.bind_eq_some_iff.mp h
    obtain ⟨⟨direction, r₂⟩, h₂, h⟩ := Option.bind_eq_some_iff.mp h
    obtain ⟨lists, h₃, -⟩ := Option.bind_eq_some_iff.mp h
    obtain rfl := literal_some h₁
    obtain ⟨d, rfl, hd⟩ := lang_of_sendOrRecv h₂
    have hlang : Lang simulcastRule.reg.body ("simulcast:".toList ++ (d ++ (" ".toList ++ r₂))) :=
      lang_seq.mpr ⟨_, _, rfl, lang_chars.mpr rfl, lang_seq.mpr ⟨d, _, rfl, lang_group.mpr hd,
        lang_seq.mpr ⟨_, r₂, rfl, lang_chars.mpr rfl, lang_of_simulcastLists h₃⟩⟩⟩
    exact first_ne_none rfl hlang (Option.map_eq_none_iff.mp hsearch)

end MediasoupClient.Sdptransform
