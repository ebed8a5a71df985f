import MediasoupClient.Sdptransform.Retexts

/-! What a rule reads of a line can be printed by it.

        a=extmap:1 urn:ietf:params:rtp-hdrext:encrypt urn:smpte vol      encrypt-uri, uri, config
        a=extmap:1 urn:ietf:params:rtp-hdrext:encrypt                    uri
        a=rtcp-fb:98 trr-int 100                                         rtcpFbTrrInt, not rtcpFb

    Besides the characters of the texts, `Told` asks for what the order of the rules and of the
    alternatives says: the rule in front did not match, so no text looks like one of its lines, and a
    part that could be matched was. -/

namespace MediasoupClient.Sdptransform
open Lib Lib.Regex Sdp

variable {pf : Platform} {dump : Json → String} {content : List Char} {g : List (List Char)}

/-! ### The rules in front -/

theorem reads_of_search {reg : Reg} (h : reg.search content = some g) :
    ∃ pre u rest, content = pre ++ (u ++ rest) ∧ reg.body.Reads u g := by
  obtain ⟨⟨g', rest⟩, hmatch, rfl⟩ := Option.map_eq_some_iff.mp h
  split_ifs at hmatch
  · obtain ⟨u, rfl, hu⟩ := first_reads hmatch
    exact ⟨[], u, rest, rfl, hu⟩
  · obtain ⟨pre, u, rfl, hu⟩ := leftmost_reads hmatch
    exact ⟨pre, u, rest, rfl, hu⟩

theorem first_of_search {reg : Reg} (hanchored : reg.anchored = true)
    (h : reg.search content = some g) : ∃ rest, first reg.body content = some (g, rest) := by
  rw [Reg.search, if_pos hanchored] at h
  obtain ⟨⟨g', rest⟩, hfirst, rfl⟩ := Option.map_eq_some_iff.mp h
  exact ⟨rest, hfirst⟩

theorem fits_of_search {reg : Reg} (h : reg.search content = some g) : reg.body.Fits g := by
  obtain ⟨-, u, -, -, hu⟩ := reads_of_search h
  exact hu.fits

/-- The groups of a line are parts of it. -/
theorem infix_of_search {reg : Reg} (h : reg.search content = some g) : ∀ t ∈ g, t <:+: content := by
  obtain ⟨pre, u, rest, rfl, hu⟩ := reads_of_search h
  intro t ht
  exact (hu.within t ht).trans ⟨pre, rest, List.append_assoc ..⟩

/-- A rule that is behind another one is taken only if that one does not match. -/
theorem search_of_behind (front back : List Rule) {r rule : Rule} {p : Rule → Bool}
    (h : findRule content (front ++ r :: back) = some (rule, g)) (hrule : p rule = true)
    (hfront : ∀ r' ∈ front ++ [r], p r' = false) : r.reg.search content = none := by
  by_contra hsome
  obtain ⟨g', hg'⟩ := Option.ne_none_iff_exists'.mp hsome
  have hskip : findRule content (front ++ r :: back) = findRule content (front ++ [r]) := by
    simp only [findRule, List.findSome?_append, List.findSome?_cons, hg', Option.map_some]
  have hfalse := hfront rule (search_of_findRule (hskip ▸ h)).1
  rw [hrule] at hfalse
  cases hfalse

/-! ### What the order of the rules says -/

theorem interval_first (h : findRule content attributeRules = some (rtcpFbRule, g)) :
    rtcpFbTrrIntRule.reg.search content = none :=
  search_of_behind (attributeRules.take 4) (attributeRules.drop 5)
    (p := fun r => r.push = "rtcpFb") h rfl (by decide)

/-- A line with an interval is one of the rule in front. -/
theorem interval_read {payload subtype : List Char}
    (h : findRule content attributeRules =
      some (rtcpFbRule, [payload, "trr-int".toList, subtype])) : subtype = [] := by
  by_contra hne
  have hnone := interval_first h
  obtain ⟨rest, hfirst⟩ := first_of_search rfl (search_of_findRule h).2
  obtain ⟨u, rfl, hu⟩ := first_reads hfirst
  obtain ⟨w₁, rfl, h₁⟩ := reads_chars_then hu
  obtain ⟨_, w₂, g₂, rfl, heq, hpayload, h₂⟩ := reads_group_then rfl h₁
  cases heq
  obtain ⟨w₃, rfl, h₃⟩ := reads_chars_then h₂
  obtain ⟨_, w₄, g₄, rfl, heq, -, h₄⟩ := reads_group_then rfl h₃
  cases heq
  obtain ⟨_, heq, h₅⟩ := reads_maybe rfl h₄
  cases heq
  obtain ⟨rfl, -⟩ := h₅.resolve_left fun h => hne h.2
  obtain ⟨m, hm⟩ : ∃ m, first (field Char.isDigit) (subtype ++ rest) = some m :=
    ⟨_, first_field_any Char.isDigit (subtype ++ rest)⟩
  have hinterval : first rtcpFbTrrIntRule.reg.body ("rtcp-fb:".toList ++ (payload ++
      (" trr-int ".toList ++ (subtype ++ rest)))) = some (payload :: m.1, m.2) :=
    first_chars_then <| first_payload_then hpayload rfl rfl <| first_chars_then hm
  have htext : "rtcp-fb:".toList ++ (payload ++ (" ".toList ++ ("trr-int".toList ++
      (" ".toList ++ subtype)))) ++ rest =
      "rtcp-fb:".toList ++ (payload ++ (" trr-int ".toList ++ (subtype ++ rest))) := by
    simp only [List.append_assoc]
    rfl
  have hread : rtcpFbTrrIntRule.Reads _ _ := reads_of_first hinterval
  rw [htext, hread.search] at hnone
  cases hnone

/-- The uri of an encrypted extension is not left for another one. -/
theorem encrypted_read {value direction config : List Char}
    (h : extRule.reg.search content = some [value, direction, [], encryptUri.toList, config]) :
    config = [] := by
  by_contra hne
  obtain ⟨rest, hfirst⟩ := first_of_search rfl h
  obtain ⟨u, rfl, hu⟩ := first_reads hfirst
  obtain ⟨w₁, rfl, h₁⟩ := reads_chars_then hu
  obtain ⟨_, w₂, g₂, rfl, heq, hvalue, h₂⟩ := reads_group_then rfl h₁
  cases heq
  obtain ⟨v₃, w₃, gv₃, gw₃, rfl, heq, hv₃, h₃⟩ := reads_seq h₂
  obtain ⟨v₄, w₄, gv₄, gw₄, rfl, rfl, hv₄, h₄⟩ := reads_seq h₃
  obtain ⟨_, rfl, hdirection⟩ := reads_maybe rfl hv₃
  obtain ⟨_, rfl, hencrypt⟩ := reads_maybe rfl hv₄
  cases heq
  have hv₃ : v₃ = maybe "/" direction ∧ (direction = [] ∨ Lang (many1 isWord) direction) := by
    rcases hdirection with ⟨rfl, rfl⟩ | ⟨rfl, hlang⟩
    · exact ⟨rfl, Or.inl rfl⟩
    · obtain ⟨c, cs, rfl⟩ := List.exists_cons_of_ne_nil (lang_many1.mp hlang).1
      exact ⟨rfl, Or.inr hlang⟩
  obtain ⟨rfl, hlang⟩ := hv₃
  obtain rfl : v₄ = [] := by
    rcases hencrypt with ⟨rfl, -⟩ | ⟨-, hencrypt⟩
    · rfl
    · cases lang_chars.mp hencrypt
  obtain ⟨w₅, rfl, h₅⟩ := reads_chars_then h₄
  obtain ⟨_, w₆, g₆, rfl, heq, -, h₆⟩ := reads_group_then rfl h₅
  cases heq
  obtain ⟨_, heq, hconfig⟩ := reads_maybe rfl h₆
  cases heq
  obtain ⟨rfl, -⟩ := hconfig.resolve_left fun h => hne h.2
  -- the engine tries the group of the uri first, and the rest matches behind it
  obtain ⟨m, hm⟩ : ∃ m, first (opt (concat [lit " ", field nonSpace]))
      ((config ++ rest).dropWhile nonSpace) = some m := first_opt_any ..
  have htail : first (concat [lit " ", field nonSpace, opt (concat [lit " ", field nonSpace])])
      (" ".toList ++ (config ++ rest)) = some ((config ++ rest).takeWhile nonSpace :: m.1, m.2) :=
    first_chars_then <| first_seq (first_field_any ..) hm
  have hencrypt : first extRule.reg.body ("extmap:".toList ++ (value ++ (maybe "/" direction ++
      (" ".toList ++ encryptUri.toList ++ (" ".toList ++ (config ++ rest)))))) = some
      (value :: direction :: encryptUri.toList :: (config ++ rest).takeWhile nonSpace :: m.1, m.2) := by
    have hopt : first (.seq (opt (concat [lit " ", .group (lit encryptUri)])) (concat [lit " ",
        field nonSpace, opt (concat [lit " ", field nonSpace])]))
        (" ".toList ++ encryptUri.toList ++ (" ".toList ++ (config ++ rest))) = some
        (encryptUri.toList :: (config ++ rest).takeWhile nonSpace :: m.1, m.2) := by
      rw [List.append_assoc]
      exact first_opt_then (first_chars_then (first_group (first_chars encryptUri.toList _))) htail
    exact first_chars_then <| first_field1_then (lang_many1.mp hvalue)
      (stops_maybe (by decide) rfl rfl) <|
      first_maybe1_then (hlang.imp_right lang_many1.mp) rfl rfl hopt
  have htext : "extmap:".toList ++ (value ++ (maybe "/" direction ++ ([] ++ (" ".toList ++
      (encryptUri.toList ++ (" ".toList ++ config)))))) ++ rest = "extmap:".toList ++ (value ++
      (maybe "/" direction ++ (" ".toList ++ encryptUri.toList ++ (" ".toList ++
        (config ++ rest))))) := by
    simp only [List.append_assoc, List.nil_append]
  rw [htext, hencrypt] at hfirst
  cases hfirst

theorem unflagged_of_search (h : xGoogleFlagRule.reg.search content = none) : Unflagged content := by
  rintro ⟨pre, suf, rfl⟩
  rw [Reg.search, if_neg (by decide), Option.map_eq_none_iff, List.append_assoc] at h
  have hfirst : first xGoogleFlagRule.reg.body ("x-google-flag:".toList ++ suf) = some _ :=
    first_chars_then (first_field_any nonSpace suf)
  refine leftmost_ne_none ?_ pre h
  rw [hfirst]
  exact Option.some_ne_none _

/-- The rules behind the flag's get no line with a flag. -/
theorem unflagged_read {rule : Rule} (h : findRule content attributeRules = some (rule, g))
    (hbehind : behindFlag rule = true) : Unflagged content :=
  unflagged_of_search (search_of_behind (attributeRules.take 30) (attributeRules.drop 31)
    (p := behindFlag) h hbehind (by decide))

/-- The last rule gets the lines of no other one. -/
theorem unread_read (h : findRule content attributeRules = some (invalidRule, g)) :
    ∀ r ∈ attributeRules, r.push ≠ "invalid" → r.reg.search content = none := by
  have hsplit : attributeRules = attributeRules.dropLast ++ [invalidRule] := rfl
  have hfront : ∀ r ∈ attributeRules.dropLast, r.push ≠ "invalid" := by decide
  intro r hr hpush
  rw [hsplit] at hr
  have hmem : r ∈ attributeRules.dropLast := by
    rcases List.mem_append.mp hr with hr | hr
    · exact hr
    · exact absurd (List.mem_singleton.mp hr ▸ rfl) hpush
  obtain ⟨front, back, hrules⟩ := List.append_of_mem hmem
  rw [hsplit, hrules, List.append_assoc, List.cons_append] at h
  refine search_of_behind _ _ (p := fun r => r.push = "invalid") h rfl fun r' hr' => ?_
  refine decide_eq_false (hfront r' ?_)
  rw [hrules]
  rcases List.mem_append.mp hr' with hr' | hr'
  · exact List.mem_append_left _ hr'
  · exact List.mem_append_right _ (List.mem_singleton.mp hr' ▸ List.mem_cons_self ..)

/-- It takes all of a line without a line break. -/
theorem invalid_whole (h : ∀ c ∈ content, dot c = true) :
    invalidRule.reg.search content = some [content] := by
  have hfirst := first_last h
  rw [List.append_nil] at hfirst
  have hread : invalidRule.Reads content [content] := reads_of_first hfirst
  exact hread.search

/-! ### Parts that come together -/

theorem anyOf_filled {texts : List String} (hne : texts ≠ []) (hall : "" ∉ texts) {t : List Char}
    (h : Lang (anyOf texts) t) : t ≠ [] := by
  obtain ⟨text, htext, rfl⟩ := (lang_anyOf hne).mp h
  intro hnil
  rw [String.toList_eq_nil_iff] at hnil
  exact hall (hnil ▸ htext)

/-- Two groups of a part that need not be there. -/
theorem both_or_none {k : Regex} {P Q : List Char → Prop} (hk : k.classes = [P, Q])
    (hP : ∀ t, P t → t ≠ []) (hQ : ∀ t, Q t → t ≠ []) {u a b : List Char}
    (h : Reads (opt k) u [a, b]) : a.isEmpty = b.isEmpty := by
  rcases reads_opt h with h | ⟨-, heq⟩
  · have hfits := h.fits
    rw [Fits, hk] at hfits
    rcases hfits with _ | ⟨ha, _ | ⟨hb, _ | _⟩⟩
    rw [List.isEmpty_eq_false_iff.mpr (hP a ha), List.isEmpty_eq_false_iff.mpr (hQ b hb)]
  · have ha : a ∈ k.blank := heq ▸ List.mem_cons_self ..
    have hb : b ∈ k.blank := heq ▸ List.mem_cons_of_mem a (List.mem_singleton_self b)
    rw [List.eq_of_mem_replicate ha, List.eq_of_mem_replicate hb]

theorem attrs_filled {t : List Char} (h : Lang (.alt (lit "*") (concat [bracketed,
    .star (concat [many1 isSpace, bracketed])])) t) : t ≠ [] := by
  rcases lang_alt.mp h with h | h
  · rw [lang_chars.mp h]
    decide
  · obtain ⟨_, w, rfl, hb, -⟩ := lang_seq.mp h
    obtain ⟨_, w', rfl, hopen, -⟩ := lang_seq.mp hb
    rw [lang_chars.mp hopen]
    exact List.cons_ne_nil '[' (w' ++ w)

theorem images_read {pt dir₁ attrs₁ dir₂ attrs₂ : List Char}
    (h : imageattrsRule.reg.search content = some [pt, dir₁, attrs₁, dir₂, attrs₂]) :
    dir₂.isEmpty = attrs₂.isEmpty := by
  obtain ⟨-, u, -, -, hu⟩ := reads_of_search h
  obtain ⟨g₁, u₂, g₂, g₃, heq, hlen, hpart⟩ := Reads.part [lit "imageattr:",
    .group (.alt (many1 Char.isDigit) (lit "*")), many1 isSpace, oneOf ["send", "recv"],
    many1 isSpace, attrsField] [] hu
  obtain ⟨a, b, c, rfl⟩ := List.length_eq_three.mp hlen
  obtain ⟨d, e, rfl⟩ := List.length_eq_two.mp hpart.length
  cases heq
  exact both_or_none rfl (fun t => anyOf_filled (by decide) (by decide)) (fun t => attrs_filled)
    hpart

theorem streams_read {dir₁ list₁ dir₂ list₂ : List Char}
    (h : simulcastRule.reg.search content = some [dir₁, list₁, dir₂, list₂]) :
    dir₂.isEmpty = list₂.isEmpty := by
  obtain ⟨-, u, -, -, hu⟩ := reads_of_search h
  obtain ⟨g₁, u₂, g₂, g₃, heq, hlen, hpart⟩ := Reads.part [lit "simulcast:",
    oneOf ["send", "recv"], lit " ", listField] [.eol] hu
  obtain ⟨a, b, rfl⟩ := List.length_eq_two.mp hlen
  obtain ⟨d, e, rfl⟩ := List.length_eq_two.mp hpart.length
  cases heq
  exact both_or_none rfl (fun t => anyOf_filled (by decide) (by decide))
    (fun t ht => (lang_many1.mp ht).1) hpart

/-! ### What is read can be printed -/

/-- The rules that `Told` asks of more than their texts. -/
def asked (rule : Rule) : Bool :=
  rule.push ∈ ["rtcpFb", "ext", "imageattrs", "invalid"] || rule.name = "simulcast"

/-- All that it asks something of are attributes. -/
theorem attributes_of_asked {type : Char} {rule : Rule} (hrule : rule ∈ rulesMap type)
    (h : (asked rule || behindFlag rule) = true) : rulesMap type = attributeRules := by
  unfold rulesMap at hrule ⊢
  split at hrule <;> first
    | rfl
    | exact absurd hrule List.not_mem_nil
    | exact absurd (List.mem_singleton.mp hrule ▸ h) (by decide)

/-- What a text keeps of its line: no line break, and no flag. -/
def Kept (rule : Rule) (t : List Char) : Prop :=
  '\n' ∉ t ∧ (behindFlag rule = true → Unflagged t)

theorem kept_digits (rule : Rule) {t : List Char} (h : ∀ c ∈ t, c.isDigit = true) : Kept rule t := by
  have hnot : ∀ c : Char, c.isDigit = false → c ∉ t := fun c hc hmem => by
    rw [h c hmem] at hc
    cases hc
  refine ⟨hnot '\n' (by decide), fun _ hflag => hnot 'x' (by decide) ?_⟩
  exact hflag.subset (by decide)

/-- The groups of a line have neither. -/
theorem kept_read {type : Char} {rule : Rule}
    (h : findRule content (rulesMap type) = some (rule, g)) (hplain : ∀ c ∈ content, dot c = true) :
    ∀ t ∈ g, Kept rule t := by
  obtain ⟨hrule, hsearch⟩ := search_of_findRule h
  intro t ht
  have hwithin := infix_of_search hsearch t ht
  refine ⟨fun hmem => ?_, fun hbehind hflag => ?_⟩
  · exact absurd (hplain '\n' (hwithin.subset hmem)) (by decide)
  · rw [attributes_of_asked hrule (by rw [hbehind, Bool.or_true])] at h
    exact unflagged_read h hbehind (hflag.trans hwithin)

@[simp] theorem merge_text (t₀ t : List Char) :
    merge pf dump .s t₀ t = if t = [] then t₀ else t := by
  rw [merge, retext_text]

/-- A text in place of none. -/
theorem merge_fresh (t : List Char) : merge pf dump .s [] t = t := by
  rw [merge_text]
  split_ifs with h
  · exact h.symm
  · rfl

/-- A text that is stored is the one that is shown. -/
theorem Shows.text {rule : Rule} {o : Json} (h : Shows pf dump rule o g) (i : ℕ) (name : String)
    {type : ValueType} {t : List Char} {text : String}
    (hname : (rule.names.zip rule.types)[i]? = some (name, type)) (ht : g[i]? = some t)
    (hstored : o.find name = some (.str text)) : t = text.toList := by
  have hholds := holds_of_shows h i name hname ht
  rw [hstored] at hholds
  exact hholds.2.1.symm

theorem told_interval (h : findRule content attributeRules = some (rtcpFbRule, g)) {v : Json}
    (hshows : Shows pf dump rtcpFbRule v
      (merged pf dump rtcpFbRule.types (List.replicate 3 []) g))
    (htype : v.find "type" = some (.str "trr-int")) : hasValue v "subtype" = false := by
  rcases fits_of_search (search_of_findRule h).2 with _ | ⟨h₁, _ | ⟨h₂, _ | ⟨h₃, _ | _⟩⟩⟩
  rename_i payload type subtype
  have hmerged : merged pf dump rtcpFbRule.types (List.replicate 3 []) [payload, type, subtype] =
      [merge pf dump .s [] payload, merge pf dump .s [] type, merge pf dump .s [] subtype] := rfl
  simp only [hmerged, merge_fresh] at hshows
  obtain rfl := hshows.text 1 "type" rfl rfl htype
  rw [hshows.hasValue 2 "subtype" rfl rfl, interval_read h]
  rfl

theorem told_encrypted (h : extRule.reg.search content = some g) {v : Json}
    (hshows : Shows pf dump extRule v (merged pf dump extRule.types (List.replicate 5 []) g))
    (huri : v.find "uri" = some (.str encryptUri)) (hconfig : hasValue v "config" = true) :
    hasValue v "encrypt-uri" = true := by
  rcases fits_of_search h with _ | ⟨h₁, _ | ⟨h₂, _ | ⟨h₃, _ | ⟨h₄, _ | ⟨h₅, _ | _⟩⟩⟩⟩⟩
  rename_i value direction encrypt uri config
  have hmerged : merged pf dump extRule.types (List.replicate 5 [])
      [value, direction, encrypt, uri, config] = [merge pf dump .d [] value,
        merge pf dump .s [] direction, merge pf dump .s [] encrypt, merge pf dump .s [] uri,
        merge pf dump .s [] config] := rfl
  simp only [hmerged, merge_fresh] at hshows
  obtain rfl := hshows.text 3 "uri" rfl rfl huri
  rw [hshows.hasValue 4 "config" rfl rfl] at hconfig
  rw [hshows.hasValue 2 "encrypt-uri" rfl rfl]
  cases encrypt with
  | nil =>
    rw [encrypted_read h] at hconfig
    cases hconfig
  | cons c cs => rfl

theorem told_images (h : imageattrsRule.reg.search content = some g) {v : Json}
    (hshows : Shows pf dump imageattrsRule v
      (merged pf dump imageattrsRule.types (List.replicate 5 []) g)) :
    hasValue v "dir2" = hasValue v "attrs2" := by
  rcases fits_of_search h with _ | ⟨h₁, _ | ⟨h₂, _ | ⟨h₃, _ | ⟨h₄, _ | ⟨h₅, _ | _⟩⟩⟩⟩⟩
  rename_i pt dir₁ attrs₁ dir₂ attrs₂
  have hmerged : merged pf dump imageattrsRule.types (List.replicate 5 [])
      [pt, dir₁, attrs₁, dir₂, attrs₂] = [merge pf dump .s [] pt, merge pf dump .s [] dir₁,
        merge pf dump .s [] attrs₁, merge pf dump .s [] dir₂, merge pf dump .s [] attrs₂] := rfl
  simp only [hmerged, merge_fresh] at hshows
  rw [hshows.hasValue 3 "dir2" rfl rfl, hshows.hasValue 4 "attrs2" rfl rfl, images_read h]

/-- A second line has both, and the first one keeps them, or neither. -/
theorem told_streams (h : simulcastRule.reg.search content = some g) {v : Json}
    {dir₁ list₁ dir₂ list₂ : List Char} (h₀ : dir₂.isEmpty = list₂.isEmpty)
    (hshows : Shows pf dump simulcastRule v
      (merged pf dump simulcastRule.types [dir₁, list₁, dir₂, list₂] g)) :
    hasValue v "dir2" = hasValue v "list2" := by
  rcases fits_of_search h with _ | ⟨h₁, _ | ⟨h₂, _ | ⟨h₃, _ | ⟨h₄, _ | _⟩⟩⟩⟩
  rename_i dir₁' list₁' dir₂' list₂'
  have hread := streams_read h
  rw [hshows.hasValue 2 "dir2" rfl rfl, hshows.hasValue 3 "list2" rfl rfl, merge_text, merge_text]
  cases dir₂' with
  | nil =>
    cases list₂' with
    | nil => rw [if_pos rfl, if_pos rfl, h₀]
    | cons c cs => cases hread
  | cons c cs =>
    cases list₂' with
    | nil => cases hread
    | cons d ds => rw [if_neg (List.cons_ne_nil c cs), if_neg (List.cons_ne_nil d ds)]; rfl

theorem told_unread (h : findRule content attributeRules = some (invalidRule, g))
    (hplain : ∀ c ∈ content, dot c = true) :
    ∀ r ∈ attributeRules, r.push ≠ "invalid" → r.reg.search
      ((merged pf dump invalidRule.types (List.replicate 1 []) g).headD []) = none := by
  obtain rfl : [content] = g :=
    Option.some.inj ((invalid_whole hplain).symm.trans (search_of_findRule h).2)
  have hmerged : merged pf dump invalidRule.types (List.replicate 1 []) [content] =
      [merge pf dump .s [] content] := rfl
  rw [hmerged, merge_fresh]
  exact unread_read h

/-- What was there before a line: texts of the same kinds, and nothing to be pushed. -/
structure Base (pf : Platform) (dump : Json → String) (rule : Rule) (location : Members)
    (g₀ : List (List Char)) : Prop where
  shows : Shows pf dump rule (.obj location) g₀
  texts : List.Forall₂ (fun P t => t = [] ∨ P t) rule.reg.body.classes g₀
  kept : ∀ t ∈ g₀, Kept rule t
  pushed : rule.push ≠ "" → g₀ = List.replicate rule.names.length []
  streams : rule.name = "simulcast" →
    hasValue (.obj location) "dir2" = hasValue (.obj location) "list2"

theorem told_unasked {rule : Rule} (h : asked rule = false) {v : Json}
    (hkept : ∀ t ∈ g, Kept rule t) : Told rule v g := by
  simp only [asked, Bool.or_eq_false_iff, decide_eq_false_iff_not, List.mem_cons,
    List.not_mem_nil, or_false, not_or] at h
  obtain ⟨⟨hfb, hext, himages, hinvalid⟩, hstreams⟩ := h
  exact ⟨fun h => absurd h hfb, fun h => absurd h hext, fun h => absurd h himages,
    fun h => absurd h hstreams, fun hbehind t ht => (hkept t ht).2 hbehind,
    fun h => absurd h hinvalid⟩

/-- What a line tells is told of its texts. -/
theorem told_merged {type : Char} {rule : Rule}
    (h : findRule content (rulesMap type) = some (rule, g)) (hplain : ∀ c ∈ content, dot c = true)
    {location m : Members} {g₀ : List (List Char)} (hbase : Base pf dump rule location g₀)
    (hshows : Shows pf dump rule (.obj m) (merged pf dump rule.types g₀ g))
    (hkept : ∀ t ∈ merged pf dump rule.types g₀ g, Kept rule t) :
    Told rule (.obj m) (merged pf dump rule.types g₀ g) := by
  obtain ⟨hrule, hsearch⟩ := search_of_findRule h
  by_cases hasked : asked rule = true
  swap
  · exact told_unasked (Bool.not_eq_true _ ▸ hasked) hkept
  rw [attributes_of_asked hrule (by rw [hasked, Bool.true_or])] at h hrule
  have hfresh := hbase.pushed
  refine ⟨fun hpush htype => ?_, fun hpush huri hconfig => ?_, fun hpush => ?_, fun hname => ?_,
    fun hbehind t ht => (hkept t ht).2 hbehind, fun hpush => ?_⟩
  · obtain rfl : rule = rtcpFbRule :=
      eq_of_filter (p := fun r => r.push = "rtcpFb") rfl hrule (decide_eq_true hpush)
    rw [hfresh (by decide)] at hshows
    exact told_interval h hshows htype
  · obtain rfl : rule = extRule :=
      eq_of_filter (p := fun r => r.push = "ext") rfl hrule (decide_eq_true hpush)
    rw [hfresh (by decide)] at hshows
    exact told_encrypted hsearch hshows huri hconfig
  · obtain rfl : rule = imageattrsRule :=
      eq_of_filter (p := fun r => r.push = "imageattrs") rfl hrule (decide_eq_true hpush)
    rw [hfresh (by decide)] at hshows
    exact told_images hsearch hshows
  · obtain rfl : rule = simulcastRule :=
      eq_of_filter (p := fun r => r.name = "simulcast") rfl hrule (decide_eq_true hname)
    have hstreams := hbase.streams rfl
    have hshows₀ := hbase.shows
    rcases hbase.texts with _ | ⟨h₁, _ | ⟨h₂, _ | ⟨h₃, _ | ⟨h₄, _ | _⟩⟩⟩⟩
    rename_i dir₁ list₁ dir₂ list₂
    rw [hshows₀.hasValue 2 "dir2" rfl rfl, hshows₀.hasValue 3 "list2" rfl rfl,
      Bool.not_inj_iff] at hstreams
    exact told_streams hsearch hstreams hshows
  · obtain rfl : rule = invalidRule :=
      eq_of_filter (p := fun r => r.push = "invalid") rfl hrule (decide_eq_true hpush)
    rw [hfresh (by decide)]
    exact told_unread h hplain

/-- Every name of a rule is another one, and has a type. -/
def namesTyped (rule : Rule) : Bool :=
  decide rule.names.Nodup && decide (rule.names.length ≤ rule.types.length)

theorem attributes_namesTyped : attributeRules.all namesTyped = true := by decide

theorem rulesMap_namesTyped {type : Char} {rule : Rule} (hrule : rule ∈ rulesMap type) :
    rule.names.Nodup ∧ rule.names.length ≤ rule.types.length := by
  have htyped : namesTyped rule = true := by
    unfold rulesMap at hrule
    split at hrule <;> first
      | exact List.all_eq_true.mp attributes_namesTyped rule hrule
      | exact absurd hrule List.not_mem_nil
      | exact List.mem_singleton.mp hrule ▸ by decide
  simpa only [namesTyped, Bool.and_eq_true, decide_eq_true_eq] using htyped

theorem attributes_named : ∀ rule ∈ attributeRules, rule.names = [] → asked rule = false := by
  decide

/-- What has no names is not asked. -/
theorem asked_of_nil {type : Char} {rule : Rule} (hrule : rule ∈ rulesMap type)
    (hnames : rule.names = []) : asked rule = false := by
  unfold rulesMap at hrule
  split at hrule <;> first
    | exact attributes_named rule hrule hnames
    | exact absurd hrule List.not_mem_nil
    | exact List.mem_singleton.mp hrule ▸ by decide

/-- Each text of its kind, and all with a property. -/
theorem forall₂_and {Ps : List (List Char → Prop)} {Q : List Char → Prop} {g : List (List Char)} :
    List.Forall₂ (fun P t => P t) (Ps.map fun P t => P t ∧ Q t) g ↔
      List.Forall₂ (fun P t => P t) Ps g ∧ ∀ t ∈ g, Q t := by
  rw [List.forall₂_map_left_iff]
  constructor
  · intro h
    refine ⟨h.imp fun _ _ hboth => hboth.1, ?_⟩
    induction h with
    | nil => exact fun t ht => absurd ht List.not_mem_nil
    | cons hboth _ ih => exact List.forall_mem_cons.mpr ⟨hboth.2, ih⟩
  · rintro ⟨h, hQ⟩
    induction h with
    | nil => exact .nil
    | cons hP _ ih =>
      obtain ⟨hhead, htail⟩ := List.forall_mem_cons.mp hQ
      exact .cons ⟨hP, hhead⟩ (ih htail)

/-- The members of a line are taken. -/
theorem attach_taken {type : Char} {rule : Rule}
    (h : findRule content (rulesMap type) = some (rule, g)) (hplain : ∀ c ∈ content, dot c = true)
    (hf : ValueType.f ∉ rule.types) (hnames : rule.names ≠ []) {location : Members}
    (hsorted : Sorted location) {g₀ : List (List Char)} (hbase : Base pf dump rule location g₀) :
    ∃ m, attachNames pf rule.names rule.types g location = .ok m ∧ Sorted m ∧
      Taken pf dump rule (.obj m) (merged pf dump rule.types g₀ g) ∧
      ∀ k ∉ rule.names, get k m = get k location := by
  obtain ⟨hrule, hsearch⟩ := search_of_findRule h
  obtain ⟨hnodup, hlen⟩ := rulesMap_namesTyped hrule
  have hstable : rule.Stable pf dump := rulesMap_stable hrule hf
  rw [Rule.Stable, Rule.fields, if_neg hnames, List.forall₂_map_left_iff] at hstable
  have hkeep : List.Forall₂ (fun nt P => Stable pf dump nt.2 P) (rule.names.zip rule.types)
      (rule.reg.body.classes.map fun P t => P t ∧ Kept rule t) :=
    List.forall₂_map_right_iff.mpr
      (hstable.imp fun _ _ hP => hP.and fun _ => kept_digits rule)
  have hg := forall₂_and.mpr ⟨fits_of_search hsearch, kept_read h hplain⟩
  have hg₀ : List.Forall₂ (fun P t => t = [] ∨ P t)
      (rule.reg.body.classes.map fun P t => P t ∧ Kept rule t) g₀ := by
    have hboth := forall₂_and.mpr ⟨List.forall₂_map_left_iff.mpr hbase.texts, hbase.kept⟩
    rw [List.map_map, List.forall₂_map_left_iff] at hboth
    exact List.forall₂_map_left_iff.mpr
      (hboth.imp fun _ _ h => h.1.imp_right fun hP => ⟨hP, h.2⟩)
  obtain ⟨m, hok, hsorted', hshows, hkinds, hother⟩ :=
    attachNames_merged hnodup hkeep hlen hg hsorted hbase.shows hg₀
  obtain ⟨hfits, hkept⟩ := forall₂_and.mp hkinds
  exact ⟨m, hok, hsorted', ⟨fun hnil => absurd hnil hnames, fun _ => hshows, hfits,
    fun t ht => (hkept t ht).1, told_merged h hplain hbase hshows hkept⟩, hother⟩

/-- So is the value of one without names. -/
theorem value_taken {type : Char} {rule : Rule}
    (h : findRule content (rulesMap type) = some (rule, g)) (hplain : ∀ c ∈ content, dot c = true)
    (hf : ValueType.f ∉ rule.types) (hnames : rule.names = []) :
    ∃ v, toType pf (g.headD []) (rule.types.headD .s) = .ok v ∧ ∃ g', Taken pf dump rule v g' := by
  obtain ⟨hrule, hsearch⟩ := search_of_findRule h
  have hstable : rule.Stable pf dump := rulesMap_stable hrule hf
  have hfits := fits_of_search hsearch
  have hkept := kept_read h hplain
  rw [Rule.Stable, Rule.fields, if_pos hnames] at hstable
  rw [Fits] at hfits
  generalize hclasses : rule.reg.body.classes = classes at hstable hfits
  rcases hstable with _ | ⟨hP, _ | _⟩
  rcases hfits with _ | ⟨ht, _ | _⟩
  rename_i P t
  obtain ⟨v, hread, hback⟩ := hP.again t ht
  have hprint : argText dump v = retext pf dump (rule.types.headD .s) t := by
    rw [retext, hread]
  have hkept' : Kept rule (retext pf dump (rule.types.headD .s) t) := by
    rcases hP.same t ht with heq | hdigits
    · rw [heq]
      exact hkept t (List.mem_singleton_self t)
    · exact kept_digits rule hdigits
  refine ⟨v, hread, [retext pf dump (rule.types.headD .s) t], fun _ => ⟨_, rfl, hprint, hback⟩,
    fun hne => absurd hnames hne, ?_, List.forall_mem_singleton.mpr hkept'.1, ?_⟩
  · rw [Fits, hclasses]
    exact .cons (hP.kind t ht) .nil
  · exact told_unasked (asked_of_nil hrule hnames) (List.forall_mem_singleton.mpr hkept')

end MediasoupClient.Sdptransform
