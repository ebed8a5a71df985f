import MediasoupClient.Sdptransform.AttributeLines

/-! The rule that prints a line is the one that reads it.

        a=rtcp-fb:98 nack rpsi        rtcpFbTrrInt  no      another word behind the payload
                                      rtcpFb        yes
        a=rid:1 send                  xGoogleFlag   no      nowhere in the line
                                      rids          yes

    Of the rules for `a=` two never match one line (`tellable`), since their lines begin differently.
    The others are told apart by what is asked of the printed texts:

        rtcpFbTrrInt   in front of rtcpFb
        xGoogleFlag    looks anywhere in a line, and is in front of nine rules
        invalid        reads every line, and is the last one -/

namespace MediasoupClient.Sdptransform
open Lib Lib.Regex Sdp

variable {pf : Platform} {dump : Json → String} {v : Json} {g : List (List Char)}

/-! ### Flags -/

/-- A text without `x-google-flag:`. -/
def Unflagged (t : List Char) : Prop := ¬ "x-google-flag:".toList <:+: t

/-- The flag does not begin in a text without an `x`. -/
theorem unflagged_append {a s : List Char} (ha : 'x' ∉ a) (hs : Unflagged s) :
    Unflagged (a ++ s) := by
  induction a with
  | nil => exact hs
  | cons c a ih =>
    intro h
    rcases List.infix_cons_iff.mp h with hbegin | hwithin
    · exact ha ((List.cons_prefix_cons.mp hbegin).1 ▸ List.mem_cons_self ..)
    · exact ih (fun h => ha (List.mem_cons_of_mem c h)) hwithin

/-- The flag has no blank. -/
theorem unflagged_word {a s : List Char} (ha : Unflagged a) (hs : Unflagged s) :
    Unflagged (a ++ ' ' :: s) := by
  have hsplit : ∀ {l a : List Char}, ' ' ∉ l → l <+: a ++ ' ' :: s → l <+: a := by
    intro l a
    induction a generalizing l with
    | nil =>
      intro hl h
      cases l with
      | nil => exact List.nil_prefix
      | cons c l => exact absurd ((List.cons_prefix_cons.mp h).1 ▸ List.mem_cons_self ..) hl
    | cons d a ih =>
      intro hl h
      cases l with
      | nil => exact List.nil_prefix
      | cons c l =>
        obtain ⟨rfl, htail⟩ := List.cons_prefix_cons.mp h
        exact List.cons_prefix_cons.mpr
          ⟨rfl, ih (fun h => hl (List.mem_cons_of_mem c h)) htail⟩
  induction a with
  | nil => exact unflagged_append (a := [' ']) (by decide) hs
  | cons c a ih =>
    intro h
    rcases List.infix_cons_iff.mp h with hbegin | hwithin
    · exact ha (hsplit (by decide) hbegin).isInfix
    · exact ih (fun h => ha (h.trans (List.suffix_cons c a).isInfix)) hwithin

theorem unflagged_maybe {a t : List Char} (ha : Unflagged a) (ht : Unflagged t) :
    Unflagged (a ++ maybe " " t) := by
  cases t with
  | nil =>
    rw [maybe, List.append_nil]
    exact ha
  | cons c cs => exact unflagged_word ha ht

theorem unflagged_end {t : List Char} (h : Unflagged t) : Unflagged (t ++ []) :=
  (List.append_nil t).symm ▸ h

theorem unflagged_second {a dir list : List Char} (ha : Unflagged a) (hdir : Unflagged dir)
    (hlist : Unflagged list) : Unflagged (a ++ second dir list) := by
  unfold second
  split_ifs
  · exact unflagged_end ha
  · exact unflagged_word ha (unflagged_word hdir (unflagged_end hlist))

/-- The rules behind the flag's. -/
def behindFlag (rule : Rule) : Bool :=
  rule.push ∈ ["rids", "imageattrs"] || rule.name ∈ ["simulcast", "simulcast_03", "framerate",
    "sourceFilter", "tsRefclk", "mediaclk"]

/-! ### What is printed -/

/-- What is true of whatever a rule has read, besides the characters of the texts. -/
structure Told (rule : Rule) (v : Json) (g : List (List Char)) : Prop where
  interval : rule.push = "rtcpFb" → v.find "type" = some (.str "trr-int") →
    hasValue v "subtype" = false
  encrypted : rule.push = "ext" → v.find "uri" = some (.str encryptUri) →
    hasValue v "config" = true → hasValue v "encrypt-uri" = true
  images : rule.push = "imageattrs" → hasValue v "dir2" = hasValue v "attrs2"
  streams : rule.name = "simulcast" → hasValue v "dir2" = hasValue v "list2"
  unflagged : behindFlag rule = true → ∀ t ∈ g, Unflagged t
  unread : rule.push = "invalid" →
    ∀ r ∈ attributeRules, r.push ≠ "invalid" → r.reg.search (g.headD []) = none

/-- What a rule reads with a member missing that it does not print without. -/
structure Whole (rule : Rule) (v : Json) : Prop where
  netType : rule.name = "rtcp" → hasValue v "netType" = true → hasValue v "address" = true
  ipVer : rule.name = "rtcp" → hasValue v "ipVer" = hasValue v "address"
  raddr : rule.push = "candidates" → hasValue v "rport" = true → hasValue v "raddr" = true
  generation : rule.push = "candidates" →
    (hasValue v "network-id" || hasValue v "network-cost") = true → hasValue v "generation" = true
  source : rule.push = "ssrcs" → hasValue v "attribute" = true

/-- A value with the texts that it is printed as and read from. -/
structure Taken (pf : Platform) (dump : Json → String) (rule : Rule) (v : Json)
    (g : List (List Char)) : Prop where
  plain : rule.names = [] → ∃ t, g = [t] ∧ argText dump v = t ∧
    toType pf t (rule.types.headD .s) = .ok v
  named : rule.names ≠ [] → Shows pf dump rule v g
  fits : rule.reg.body.Fits g
  oneLine : ∀ t ∈ g, '\n' ∉ t
  told : Told rule v g

/-- A value that a rule prints on one line. -/
structure Prints (pf : Platform) (dump : Json → String) (rule : Rule) (v : Json)
    (g : List (List Char)) : Prop extends Taken pf dump rule v g where
  whole : Whole rule v

/-! ### Every rule reads its lines -/

theorem attribute_line : ∀ rule ∈ attributeRules, ∀ {g : List (List Char)},
    Prints pf dump rule v g → rule.Reads (rule.line v g) g := by
  simp only [attributeRules, List.forall_mem_cons]
  exact ⟨fun h => rtp_line (h.named (by decide)) h.fits, fun h => fmtp_line h.fits,
    fun h => valueRule_line (by decide) h.fits,
    fun h => rtcp_line (h.named (by decide)) h.fits (h.whole.netType rfl) (h.whole.ipVer rfl),
    fun h => rtcpFbTrrInt_line h.fits,
    fun h => rtcpFb_line (h.named (by decide)) h.fits,
    fun h => ext_line (h.named (by decide)) h.fits (h.told.encrypted rfl),
    fun h => flagRule_line (by decide) (by decide) h.fits,
    fun h => crypto_line (h.named (by decide)) h.fits,
    fun h => valueRule_line (by decide) h.fits,
    fun h => valueRule_line (by decide) h.fits,
    fun h => valueRule_line (by decide) h.fits,
    fun h => valueRule_line (by decide) h.fits,
    fun h => valueRule_line (by decide) h.fits,
    fun h => flagRule_line (by decide) (by decide) h.fits,
    fun h => flagRule_line (by decide) (by decide) h.fits,
    fun h => valueRule_line (by decide) h.fits,
    fun h => valueRule_line (by decide) h.fits,
    fun h => fingerprint_line h.fits,
    fun h => candidates_line (h.named (by decide)) h.fits (h.whole.raddr rfl)
      (h.whole.generation rfl),
    fun h => flagRule_line (by decide) (by decide) h.fits,
    fun h => valueRule_line (by decide) h.fits,
    fun h => valueRule_line (by decide) h.fits,
    fun h => ssrcs_line (h.named (by decide)) h.fits (h.whole.source rfl),
    fun h => ssrcGroups_line h.fits, fun h => msidSemantic_line h.fits,
    fun h => groups_line h.fits,
    fun h => flagRule_line (by decide) (by decide) h.fits,
    fun h => flagRule_line (by decide) (by decide) h.fits,
    fun h => sctpmap_line (h.named (by decide)) h.fits, fun h => xGoogleFlag_line h.fits,
    fun h => rids_line (h.named (by decide)) h.fits,
    fun h => imageattrs_line (h.named (by decide)) h.fits (h.told.images rfl),
    fun h => simulcast_line (h.named (by decide)) h.fits (h.told.streams rfl),
    fun h => simulcast03_line h.fits, fun h => framerate_line h.fits,
    fun h => sourceFilter_line h.fits,
    fun h => valueRule_line (by decide) h.fits,
    fun h => valueRule_line (by decide) h.fits,
    fun h => text_line rfl rfl h.fits, fun _ h => absurd h List.not_mem_nil⟩

theorem rule_line {type : Char} {rule : Rule} (hrule : rule ∈ rulesMap type)
    (h : Prints pf dump rule v g) : rule.Reads (rule.line v g) g := by
  unfold rulesMap at hrule
  split at hrule
  · obtain rfl := List.mem_singleton.mp hrule
    exact version_line h.fits
  · obtain rfl := List.mem_singleton.mp hrule
    exact origin_line h.fits
  · obtain rfl := List.mem_singleton.mp hrule
    exact text_line rfl rfl h.fits
  · obtain rfl := List.mem_singleton.mp hrule
    exact text_line rfl rfl h.fits
  · obtain rfl := List.mem_singleton.mp hrule
    exact text_line rfl rfl h.fits
  · obtain rfl := List.mem_singleton.mp hrule
    exact text_line rfl rfl h.fits
  · obtain rfl := List.mem_singleton.mp hrule
    exact text_line rfl rfl h.fits
  · obtain rfl := List.mem_singleton.mp hrule
    exact text_line rfl rfl h.fits
  · obtain rfl := List.mem_singleton.mp hrule
    exact text_line rfl rfl h.fits
  · obtain rfl := List.mem_singleton.mp hrule
    exact timing_line h.fits
  · obtain rfl := List.mem_singleton.mp hrule
    exact connection_line (h.named (by decide)) h.fits
  · obtain rfl := List.mem_singleton.mp hrule
    exact bandwidth_line h.fits
  · obtain rfl := List.mem_singleton.mp hrule
    exact media_line (h.named (by decide)) h.fits
  · exact attribute_line rule hrule h
  · exact absurd hrule List.not_mem_nil

/-! ### No rule in front of it does -/

/-- No line begins as both rules ask for. -/
def sure (r rule : Rule) : Bool := r.reg.anchored && apart r.reg.body rule.reg.body

/-- The pairs that are told apart by the texts. -/
def byTexts (r rule : Rule) : Bool :=
  rule.push = "invalid" || (r.name = "xGoogleFlag" && behindFlag rule) ||
    (r.push = "rtcpFbTrrInt" && rule.push = "rtcpFb")

def tellable : List Rule → Bool
  | [] => true
  | r :: rules => (rules.all fun rule => sure r rule || byTexts r rule) && tellable rules

theorem attributes_tellable : tellable attributeRules = true := by decide

theorem search_of_sure {r rule : Rule} {content : List Char} (h : sure r rule = true)
    (hread : rule.Reads content g) : r.reg.search content = none := by
  obtain ⟨hanchored, hapart⟩ := (Bool.and_eq_true ..).mp h
  obtain ⟨rest, hfirst⟩ := hread
  obtain ⟨u, rfl, hu⟩ := first_reads hfirst
  rw [Reg.search, if_pos hanchored, first_of_nil (run_of_apart hapart hu rest), Option.map_none]

theorem findRule_here {content : List Char} {rule : Rule} (h : rule.reg.search content = some g)
    (rules : List Rule) : findRule content (rule :: rules) = some (rule, g) := by
  rw [findRule, List.findSome?_cons, h, Option.map_some]

theorem findRule_skip {content : List Char} {r : Rule} (h : r.reg.search content = none)
    (rules : List Rule) : findRule content (r :: rules) = findRule content rules := by
  rw [findRule, List.findSome?_cons, h, Option.map_none, findRule]

theorem search_of_findRule {content : List Char} {rules : List Rule} {rule : Rule}
    (h : findRule content rules = some (rule, g)) :
    rule ∈ rules ∧ rule.reg.search content = some g := by
  obtain ⟨r, hr, hmap⟩ := List.exists_of_findSome?_eq_some h
  obtain ⟨g', hsearch, heq⟩ := Option.map_eq_some_iff.mp hmap
  cases heq
  exact ⟨hr, hsearch⟩

/-- A rule that matches is the one that is found, or is not told apart from it. -/
theorem found_of_tellable {rules : List Rule} (h : tellable rules = true) {rule r : Rule}
    (hrule : rule ∈ rules) {content : List Char} (hread : rule.Reads content g)
    {g' : List (List Char)} (hfind : findRule content rules = some (r, g')) :
    r = rule ∨ byTexts r rule = true := by
  induction rules with
  | nil => exact absurd hrule List.not_mem_nil
  | cons r₀ rules ih =>
    obtain ⟨hall, htellable⟩ := (Bool.and_eq_true ..).mp h
    rcases List.mem_cons.mp hrule with rfl | hmem
    · cases (findRule_here hread.search rules).symm.trans hfind
      exact Or.inl rfl
    cases hsearch : r₀.reg.search content with
    | none => exact ih htellable hmem ((findRule_skip hsearch rules).symm.trans hfind)
    | some g₀ =>
      cases (findRule_here hsearch rules).symm.trans hfind
      refine Or.inr (((Bool.or_eq_true ..).mp (List.all_eq_true.mp hall rule hmem)).resolve_left
        fun hsure => ?_)
      cases (search_of_sure hsure hread).symm.trans hsearch

/-- Some rule is found if one matches. -/
theorem findRule_of_search {rules : List Rule} {rule : Rule} (hrule : rule ∈ rules)
    {content : List Char} (h : rule.reg.search content = some g) :
    ∃ r g', findRule content rules = some (r, g') := by
  have hsome : findRule content rules ≠ none := by
    intro hnone
    have hmap := List.findSome?_eq_none_iff.mp hnone rule hrule
    rw [h] at hmap
    cases hmap
  obtain ⟨⟨r, g'⟩, hfind⟩ := Option.ne_none_iff_exists'.mp hsome
  exact ⟨r, g', hfind⟩

/-- The pairs that are not told apart are looked at one by one. -/
theorem findRule_of_tellable {rules : List Rule} (h : tellable rules = true) {rule : Rule}
    (hrule : rule ∈ rules) {content : List Char} (hread : rule.Reads content g)
    (hnone : ∀ r ∈ rules, byTexts r rule = true → r = rule ∨ r.reg.search content = none) :
    findRule content rules = some (rule, g) := by
  obtain ⟨r, g', hfind⟩ := findRule_of_search hrule hread.search
  obtain ⟨hr, hsearch⟩ := search_of_findRule hfind
  have hfound : r = rule := (found_of_tellable h hrule hread hfind).elim id fun htexts =>
    (hnone r hr htexts).resolve_right fun hnone => nomatch hnone.symm.trans hsearch
  subst hfound
  cases hread.search.symm.trans hsearch
  exact hfind

/-! ### The pairs that the texts tell apart -/

/-- The flag is in no line of which no text has it. -/
theorem unflagged_line {rule : Rule} (hrule : rule ∈ attributeRules)
    (hbehind : behindFlag rule = true) (h : Prints pf dump rule v g) :
    Unflagged (rule.line v g) := by
  have hrules : attributeRules.filter behindFlag = [ridsRule, imageattrsRule, simulcastRule,
      simulcast03Rule, framerateRule, sourceFilterRule, tsRefclkRule, mediaclkRule] := rfl
  have htexts := h.told.unflagged hbehind
  have hmem : rule ∈ attributeRules.filter behindFlag := List.mem_filter.mpr ⟨hrule, hbehind⟩
  rw [hrules] at hmem
  simp only [List.mem_cons, List.not_mem_nil, or_false] at hmem
  rcases hmem with rfl | rfl | rfl | rfl | rfl | rfl | rfl | rfl
  · rcases h.fits with _ | ⟨_, _ | ⟨_, _ | ⟨_, _ | _⟩⟩⟩
    simp only [List.forall_mem_cons] at htexts
    obtain ⟨hid, hdirection, hparams, -⟩ := htexts
    rw [rids_line_eq (h.named (by decide))]
    exact unflagged_append (by decide) (unflagged_word hid (unflagged_maybe hdirection hparams))
  · rcases h.fits with _ | ⟨_, _ | ⟨_, _ | ⟨_, _ | ⟨_, _ | ⟨_, _ | _⟩⟩⟩⟩⟩
    simp only [List.forall_mem_cons] at htexts
    obtain ⟨hpt, hdir₁, hattrs₁, hdir₂, hattrs₂, -⟩ := htexts
    rw [imageattrs_line_eq (h.named (by decide))]
    exact unflagged_append (by decide) (unflagged_word hpt (unflagged_word hdir₁
      (unflagged_second hattrs₁ hdir₂ hattrs₂)))
  · rcases h.fits with _ | ⟨_, _ | ⟨_, _ | ⟨_, _ | ⟨_, _ | _⟩⟩⟩⟩
    simp only [List.forall_mem_cons] at htexts
    obtain ⟨hdir₁, hlist₁, hdir₂, hlist₂, -⟩ := htexts
    rw [simulcast_line_eq (h.named (by decide))]
    exact unflagged_append (by decide) (unflagged_word hdir₁
      (unflagged_second hlist₁ hdir₂ hlist₂))
  · rcases h.fits with _ | ⟨_, _ | _⟩
    rw [simulcast03_line_eq]
    exact unflagged_append (by decide) (unflagged_end (htexts _ (List.mem_cons_self ..)))
  · rcases h.fits with _ | ⟨_, _ | _⟩
    rw [framerate_line_eq]
    exact unflagged_append (by decide) (unflagged_end (htexts _ (List.mem_cons_self ..)))
  · rcases h.fits with _ | ⟨_, _ | ⟨_, _ | ⟨_, _ | ⟨_, _ | ⟨_, _ | _⟩⟩⟩⟩⟩
    simp only [List.forall_mem_cons] at htexts
    obtain ⟨hmode, hnetType, htypes, haddress, hlist, -⟩ := htexts
    rw [sourceFilter_line_eq]
    exact unflagged_append (by decide) (unflagged_append (by decide) (unflagged_word hmode
      (unflagged_word hnetType (unflagged_word htypes
        (unflagged_word haddress (unflagged_end hlist))))))
  · rcases h.fits with _ | ⟨_, _ | _⟩
    rw [tsRefclkRule, valueRule_line_eq (by decide)]
    exact unflagged_append (by decide) (unflagged_end (htexts _ (List.mem_cons_self ..)))
  · rcases h.fits with _ | ⟨_, _ | _⟩
    rw [mediaclkRule, valueRule_line_eq (by decide)]
    exact unflagged_append (by decide) (unflagged_end (htexts _ (List.mem_cons_self ..)))

theorem search_flag {content : List Char} (h : Unflagged content) :
    xGoogleFlagRule.reg.search content = none := by
  cases hleft : leftmost xGoogleFlagRule.reg.body content with
  | none =>
    rw [Reg.search, if_neg (by decide), hleft, Option.map_none]
  | some m =>
    obtain ⟨pre, u, rfl, hu⟩ := leftmost_reads hleft
    obtain ⟨flag, hflag, hbegin⟩ := hu.starts
    obtain rfl := List.mem_singleton.mp hflag
    exact absurd ((hbegin.trans (List.prefix_append u m.2)).isInfix.trans
      (List.suffix_append pre _).isInfix) h

theorem payload_plain {u : List Char} (h : Lang (.alt (lit "*") (.many Char.isDigit)) u) :
    ∀ c ∈ u, (c = '*' || c.isDigit) = true := by
  rcases lang_alt.mp h with h | h
  · rw [lang_chars.mp h]
    exact List.all_eq_true.mp (by decide)
  · intro c hc
    rw [lang_many.mp h c hc, Bool.or_true]

/-- A line of `rtcpFb` says `trr-int` only at its end. -/
theorem search_interval (h : Prints pf dump rtcpFbRule v g) :
    rtcpFbTrrIntRule.reg.search (rtcpFbRule.line v g) = none := by
  have hshows := h.named (by decide)
  rcases h.fits with _ | ⟨h₁, _ | ⟨h₂, _ | ⟨h₃, _ | _⟩⟩⟩
  rename_i payload type subtype
  rw [rtcpFb_line_eq hshows, Reg.search, if_pos (by decide), Option.map_eq_none_iff]
  by_contra hsome
  obtain ⟨m, hm⟩ := Option.ne_none_iff_exists'.mp hsome
  obtain ⟨u, heq, hu⟩ := first_reads hm
  obtain ⟨_, w, rfl, hpre, hw⟩ := lang_seq.mp ⟨_, hu⟩
  obtain ⟨payload', w, rfl, hpayload, hw⟩ := lang_seq.mp hw
  obtain ⟨_, digits, rfl, hword, -⟩ := lang_seq.mp hw
  obtain rfl := lang_chars.mp hpre
  obtain rfl := lang_chars.mp hword
  simp only [List.append_assoc] at heq
  obtain ⟨-, heq⟩ := append_inj_of_stops (payload_plain h₁)
    (payload_plain (lang_group.mp hpayload)) rfl rfl (List.append_cancel_left heq)
  have hstop : stops feedbackChar (maybe " " subtype) = true := by
    cases subtype <;> rfl
  have hrest : type ++ maybe " " subtype = "trr-int".toList ++ ' ' :: (digits ++ m.2) :=
    (List.cons.inj heq).2
  obtain ⟨rfl, hmaybe⟩ := append_inj_of_stops (lang_many.mp h₂)
    (List.all_eq_true.mp (by decide)) hstop rfl hrest
  have hsubtype := h.told.interval rfl ((holds_of_shows hshows 1 "type" rfl rfl).text (by decide))
  rw [hshows.hasValue 2 "subtype" rfl rfl] at hsubtype
  cases subtype with
  | nil => cases hmaybe
  | cons c cs => cases hsubtype

/-- All types but one have a single rule. -/
theorem rulesMap_cases {type : Char} {rule : Rule} (hrule : rule ∈ rulesMap type) :
    rulesMap type = [rule] ∨ rulesMap type = attributeRules := by
  unfold rulesMap at hrule ⊢
  split at hrule <;> first
    | exact Or.inl (congrArg (fun r => [r]) (List.mem_singleton.mp hrule).symm)
    | exact Or.inr rfl
    | exact absurd hrule List.not_mem_nil

/-- The only rule of a kind. -/
theorem eq_of_filter {p : Rule → Bool} {k r : Rule} (h : attributeRules.filter p = [k])
    (hr : r ∈ attributeRules) (hp : p r = true) : r = k :=
  List.mem_singleton.mp (h ▸ List.mem_filter.mpr ⟨hr, hp⟩)

/-- Each line is read by the rule that prints it, and no text is lost. -/
theorem findRule_line {type : Char} {rule : Rule} (hrule : rule ∈ rulesMap type)
    (h : Prints pf dump rule v g) :
    findRule (rule.line v g) (rulesMap type) = some (rule, g) := by
  have hread := rule_line hrule h
  rcases rulesMap_cases hrule with hone | hattributes
  · rw [hone]
    exact findRule_here hread.search []
  rw [hattributes] at hrule ⊢
  refine findRule_of_tellable attributes_tellable hrule hread fun r hr htexts => ?_
  simp only [byTexts, Bool.or_eq_true, Bool.and_eq_true, decide_eq_true_eq] at htexts
  rcases htexts with (hinvalid | ⟨hflag, hbehind⟩) | ⟨hinterval, hfeedback⟩
  · obtain rfl : rule = invalidRule :=
      eq_of_filter (p := fun r => r.push = "invalid") rfl hrule (decide_eq_true hinvalid)
    rcases h.fits with _ | ⟨_, _ | _⟩
    rename_i t _
    have hline : invalidRule.line v [t] = t :=
      ((line_format invalidRule rfl).trans rfl).trans (List.append_nil t)
    by_cases hr' : r.push = "invalid"
    · exact Or.inl (eq_of_filter (p := fun r => r.push = "invalid") rfl hr (decide_eq_true hr'))
    · rw [hline]
      exact Or.inr (h.told.unread rfl r hr hr')
  · obtain rfl : r = xGoogleFlagRule :=
      eq_of_filter (p := fun r => r.name = "xGoogleFlag") rfl hr (decide_eq_true hflag)
    exact Or.inr (search_flag (unflagged_line hrule hbehind h))
  · obtain rfl : r = rtcpFbTrrIntRule :=
      eq_of_filter (p := fun r => r.push = "rtcpFbTrrInt") rfl hr (decide_eq_true hinterval)
    obtain rfl : rule = rtcpFbRule :=
      eq_of_filter (p := fun r => r.push = "rtcpFb") rfl hrule (decide_eq_true hfeedback)
    exact Or.inr (search_interval h)

end MediasoupClient.Sdptransform
