import MediasoupClient.Sdptransform.Sessions

/-! `parse` takes back what `write` prints.

        { media: [ { type: "audio", port: 9, protocol: "RTP/SAVPF", payloads: "111",
                     mid: "0", rtp: [ ... ], fmtp: [ ... ], ... }, ... ],
          origin: { ... }, version: 0, name: "-", ... }

    The members of such a session are those of the grammar, each printed on lines that are read
    again (`Location`). Not of the grammar, and lost, would be any other member, an empty array, or a
    line of a section that `write` does not print there. -/

namespace MediasoupClient.Sdptransform
open Lib Lib.Regex Sdp

/-- The rules of a session, and of a section. -/
def outerRules : List Rule := (ordered outerOrder).map (·.2)
def innerRules : List Rule := (ordered innerOrder).map (·.2)

section
variable (pf : Platform) (dump : Json → String)

/-- A media section that is printed and read again. -/
structure Section (m : Members) : Prop where
  sorted : Sorted m
  line : ∃ g, Prints pf dump mediaRule (.obj m) g
  location : Location pf dump innerRules m
  arrays : ∀ k ∈ ["rtp", "fmtp"], ∃ es, get k m = some (.arr es)
  filled : ∀ rule ∈ innerRules, rule.key ∉ ["rtp", "fmtp"] → get rule.key m ≠ some (.arr [])
  known : ∀ k, k ∉ mediaRule.names → k ∉ innerRules.map Rule.key → get k m = none

/-- A session that is. -/
structure Session (session : Members) : Prop where
  sorted : Sorted session
  location : Location pf dump outerRules session
  filled : ∀ rule ∈ outerRules, get rule.key session ≠ some (.arr [])
  known : ∀ k, k ≠ "media" → k ∉ outerRules.map Rule.key → get k session = none
  media : ∃ sections : List Members, get "media" session = some (.arr (sections.map .obj)) ∧
    ∀ m ∈ sections, Section pf dump m

/-- The members that a session has in any case when it is printed. -/
def completed (session : Members) : Members :=
  ensure "name" (.str "-") (ensure "version" (.int 0) session)

end

variable {pf : Platform} {dump : Json → String}

/-! ### The keys of the grammar -/

theorem keys_checked : ((ordered outerOrder).map (·.2.key)).Nodup ∧
    ((ordered innerOrder).map (·.2.key)).Nodup ∧
    (innerRules.all fun rule => rule.key ∉ mediaRule.names &&
      (rule.push ≠ "" || rule.key ∉ ["rtp", "fmtp"])) = true ∧
    ∀ k ∈ ["rtp", "fmtp"], k ∈ innerRules.map Rule.key := by decide

theorem outerKeys_nodup : ((ordered outerOrder).map (·.2.key)).Nodup := keys_checked.1

theorem innerKeys_nodup : ((ordered innerOrder).map (·.2.key)).Nodup := keys_checked.2.1

theorem mem_ordered {order : List Char} {tr : Char × Rule} (h : tr ∈ ordered order) :
    tr.1 ∈ order ∧ tr.2 ∈ rulesMap tr.1 := by
  obtain ⟨type, htype, h⟩ := List.mem_flatMap.mp h
  obtain ⟨rule, hrule, rfl⟩ := List.mem_map.mp h
  exact ⟨htype, hrule⟩

theorem innerKeys_known : (innerRules.all fun rule => rule.key ∉ mediaRule.names &&
    (rule.push ≠ "" || rule.key ∉ ["rtp", "fmtp"])) = true := keys_checked.2.2.1

theorem arrays_inner : ∀ k ∈ ["rtp", "fmtp"], k ∈ innerRules.map Rule.key := keys_checked.2.2.2

theorem get_blankMedia (k : String) :
    get k blankMedia = if k ∈ ["rtp", "fmtp"] then some (.arr []) else none := by
  rw [blankMedia, Lib.get, Lib.get, Lib.get]
  by_cases hr : k = "rtp"
  · subst hr
    rfl
  · by_cases hf : k = "fmtp"
    · subst hf
      rfl
    · rw [if_neg hf, if_neg hr, if_neg]
      simp only [List.mem_cons, hr, hf, List.not_mem_nil, or_self, not_false_iff]

theorem sorted_blankMedia : Sorted blankMedia :=
  List.pairwise_pair.mpr (by decide)

/-- What a rule prints of a location are lines of its own. -/
theorem mem_ruleContents {type : Char} (htype : type ≠ 'm') {rule : Rule}
    (hrule : rule ∈ rulesMap type) {rules : List Rule} (hmem : rule ∈ rules) {m : Members}
    (h : Location pf dump rules m) {content : List Char}
    (hcontent : content ∈ ruleContents dump (.obj m) rule) :
    ∃ v g, Prints pf dump rule v g ∧ content = rule.line v g := by
  have hform := rulesMap_wellFormed htype hrule
  unfold ruleContents at hcontent
  split_ifs at hcontent with hname hpush
  · have hpush : rule.push = "" := by
      by_contra hpush
      exact hname.1 (Rule.pushed hform hpush).1
    obtain ⟨hname, hlen⟩ := Rule.named hform hpush
    have hkey : rule.key = rule.name := if_pos hpush
    have hmember := h.member rule hmem
    have hown := h.own rule hmem hpush
    rw [hkey] at hmember hown
    cases hv : get rule.name m with
    | none =>
      have hfind : (Json.obj m).find rule.name = none := hv
      rename_i hboth
      rw [hfind] at hboth
      exact absurd hboth.2 Bool.false_ne_true
    | some v =>
      have hstored := hmember v hv
      rw [Member, if_pos hpush] at hstored
      obtain ⟨g, hprints⟩ := hstored.prints
      rw [List.mem_singleton.mp hcontent]
      exact ⟨v, g, hprints, contentOf_value hpush hname hlen hv hprints (hown v hv)⟩
  · obtain ⟨hname, hnames, hlen⟩ := Rule.pushed hform hpush
    have hkey : rule.key = rule.push := if_neg hpush
    have hmember := h.member rule hmem
    rw [hkey] at hmember
    split at hcontent
    · rename_i es hes
      have hstored := hmember (.arr es) hes
      rw [Member, if_neg hpush] at hstored
      obtain ⟨es', heq, hall⟩ := hstored
      cases heq
      obtain ⟨e, he, rfl⟩ := List.mem_map.mp hcontent
      obtain ⟨g, hprints⟩ := (hall e he).prints
      exact ⟨e, g, hprints, contentOf_element hname hnames hlen hprints⟩
    · exact absurd hcontent List.not_mem_nil
  · exact absurd hcontent List.not_mem_nil

/-- A location is printed with lower-case types, none of them `m`, and without line breaks. -/
theorem linesOf_plain (order : List Char)
    (horder : (order.all fun type => type.isLower && decide (type ≠ 'm')) = true) {m : Members}
    (h : Location pf dump ((ordered order).map (·.2)) m) :
    ∀ line ∈ linesOf dump order (.obj m),
      line.1.isLower = true ∧ line.1 ≠ 'm' ∧ '\n' ∉ line.2 := by
  intro line hline
  rw [linesOf_ordered] at hline
  obtain ⟨tr, htr, hline⟩ := List.mem_flatMap.mp hline
  obtain ⟨content, hcontent, rfl⟩ := List.mem_map.mp hline
  obtain ⟨htype, hrule⟩ := mem_ordered htr
  obtain ⟨hlower, hm⟩ := (Bool.and_eq_true ..).mp (List.all_eq_true.mp horder _ htype)
  have hm : tr.1 ≠ 'm' := of_decide_eq_true hm
  obtain ⟨v, g, hprints, rfl⟩ := mem_ruleContents hm hrule (List.mem_map_of_mem htr) h hcontent
  exact ⟨hlower, hm, oneLine_line hrule hprints⟩

/-! ### A section -/

theorem section_base {m : Members} (h : Section pf dump m) :
    ∃ base, storeRules pf 'm' (contentOf dump mediaRule (.obj m)) blankMedia = .ok base ∧
      Sorted base ∧ ∀ k, get k base =
        if k ∈ mediaRule.names then (get k m).or (get k blankMedia) else get k blankMedia := by
  obtain ⟨g, hg⟩ := h.line
  obtain ⟨base, hok, hsorted, hget⟩ :=
    attachNames_shows (by decide) (hg.named (by decide)) sorted_blankMedia
  refine ⟨base, ?_, hsorted, hget⟩
  rw [contentOf_element rfl (by decide) (by decide) hg, storeRules,
    findRule_line (List.mem_singleton_self mediaRule) hg]
  exact hok

theorem section_plain {m : Members} (h : Section pf dump m) :
    ∀ line ∈ mediaLines dump (.obj m), line.1.isLower = true ∧ '\n' ∉ line.2 := by
  obtain ⟨g, hg⟩ := h.line
  refine List.forall_mem_cons.mpr ⟨⟨rfl, ?_⟩, fun line hline => ?_⟩
  · rw [contentOf_element rfl (by decide) (by decide) hg]
    have hrule : mediaRule ∈ rulesMap 'm' := List.mem_singleton_self mediaRule
    exact oneLine_line hrule hg
  · obtain ⟨hlower, -, hcontent⟩ := linesOf_plain innerOrder (by decide) h.location line hline
    exact ⟨hlower, hcontent⟩

theorem section_read {m : Members} (h : Section pf dump m) {base : Members}
    (hsorted : Sorted base) (hbase : ∀ k, get k base =
      if k ∈ mediaRule.names then (get k m).or (get k blankMedia) else get k blankMedia) :
    readLines pf (linesOf dump innerOrder (.obj m)) base = .ok m := by
  have hkey : ∀ rule ∈ innerRules, rule.key ∉ mediaRule.names ∧
      (rule.push ≠ "" ∨ rule.key ∉ ["rtp", "fmtp"]) := by
    intro rule hrule
    have hall := List.all_eq_true.mp innerKeys_known rule hrule
    simpa only [Bool.and_eq_true, Bool.or_eq_true, decide_eq_true_eq] using hall
  have hfresh : ∀ tr ∈ ordered innerOrder, Fresh tr.2 base := by
    intro tr htr
    obtain ⟨hnames, harrays⟩ := hkey tr.2 (List.mem_map_of_mem htr)
    rw [Fresh, hbase, if_neg hnames, get_blankMedia]
    split_ifs with hk
    · exact Or.inr ⟨harrays.resolve_right (not_not.mpr hk), rfl⟩
    · exact Or.inl rfl
  have htype : ∀ tr ∈ ordered innerOrder, tr.1 ≠ 'm' := by
    intro tr htr heq
    have hmem := (mem_ordered htr).1
    rw [heq] at hmem
    exact absurd hmem (by decide)
  obtain ⟨m', hok, hsorted', hget⟩ := readLines_rules h.location
    (fun tr htr => ⟨htype tr htr, (mem_ordered htr).2, List.mem_map_of_mem htr⟩) innerKeys_nodup
    hsorted hfresh
  suffices heq : m' = m by
    rw [linesOf_ordered, hok, heq]
  refine sorted_ext hsorted' h.sorted fun k => ?_
  have hkeys : (ordered innerOrder).map (·.2.key) = innerRules.map Rule.key := by
    rw [innerRules, List.map_map]
    rfl
  rw [hget k, hkeys]
  by_cases hk : k ∈ innerRules.map Rule.key
  · obtain ⟨rule, hrule, rfl⟩ := List.mem_map.mp hk
    split_ifs with hshown
    · rfl
    have hshown : shown (get rule.key m) = false := by
      rw [Bool.eq_false_iff]
      exact fun h => hshown ⟨hk, h⟩
    rw [hbase, if_neg (hkey rule hrule).1, get_blankMedia]
    split_ifs with harray
    · obtain ⟨es, hes⟩ := h.arrays _ harray
      rw [hes] at hshown ⊢
      cases es with
      | nil => rfl
      | cons e es => cases hshown
    · exact ((shown_eq_false hshown).resolve_right (h.filled rule hrule harray)).symm
  · have hnone : get k blankMedia = none := by
      rw [get_blankMedia, if_neg fun h => hk (arrays_inner k h)]
    rw [if_neg fun h => hk h.1, hbase, hnone]
    split_ifs with hnames
    · exact Option.or_none
    · exact (h.known k hnames hk).symm

/-! ### Members that are added in any case -/

theorem get_ensure (k key : String) (v : Json) (m : Members) :
    get k (ensure key v m) = if k = key then some ((get key m).getD v) else get k m := by
  unfold ensure
  cases hv : get key m with
  | none =>
    rw [get_put]
    rfl
  | some w =>
    split_ifs with hk
    · rw [hk, hv]
      rfl
    · rfl

theorem sorted_ensure {key : String} {v : Json} {m : Members} (h : Sorted m) :
    Sorted (ensure key v m) := by
  unfold ensure
  split
  · exact h
  · exact sorted_put key v h

/-- Whether the lines of a location depend on a member. -/
def ignores (key : String) (rule : Rule) : Bool := key ∉ rule.name :: rule.push :: rule.names

/-- A member that no rule looks for changes no line. -/
theorem linesOf_congr (order : List Char) (horder : 'm' ∉ order) {key : String}
    (hignores : ((ordered order).all fun tr => ignores key tr.2) = true) {a b : Json}
    (h : ∀ k, k ≠ key → a.find k = b.find k) : linesOf dump order a = linesOf dump order b := by
  rw [linesOf_ordered, linesOf_ordered]
  refine List.flatMap_congr fun tr htr => congrArg (List.map (tr.1, ·)) ?_
  obtain ⟨htype, hrule⟩ := mem_ordered htr
  have hne : ∀ k ∈ tr.2.name :: tr.2.push :: tr.2.names, a.find k = b.find k := by
    intro k hk
    have hkey := of_decide_eq_true (List.all_eq_true.mp hignores tr htr)
    exact h k fun heq => hkey (heq ▸ hk)
  simp only [List.forall_mem_cons] at hne
  obtain ⟨hname, hpush, hnames⟩ := hne
  unfold ruleContents
  rw [hname, hpush]
  split_ifs with hnamed
  · have hform := rulesMap_wellFormed (fun heq => horder (heq ▸ htype)) hrule
    have hnone : ¬ (tr.2.push ≠ "" ∨ tr.2.name = "") :=
      not_or.mpr ⟨fun hpush => hnamed.1 (Rule.pushed hform hpush).1, hnamed.1⟩
    have hargs : argsOf tr.2 a = argsOf tr.2 b := by
      unfold argsOf
      rw [hname]
      refine congrArg (ite _ _) (List.map_congr_left fun name hmem => ?_)
      rw [argOf, argOf, hname, hnames name hmem]
    rw [contentOf, contentOf, formatted, formatted, if_neg hnone, if_neg hnone, hname, hargs]
  · rfl
  · rfl

/-- A section says the same with its payloads ensured. -/
theorem mediaLines_payloads (m : Members) :
    mediaLines dump (.obj (ensure "payloads" (.str "") m)) = mediaLines dump (.obj m) := by
  have hfind : ∀ k, k ≠ "payloads" → (Json.obj (ensure "payloads" (.str "") m)).find k =
      (Json.obj m).find k := by
    intro k hk
    exact (get_ensure k "payloads" (.str "") m).trans (if_neg hk)
  have hpayloads : (Json.obj (ensure "payloads" (.str "") m)).find "payloads" =
      some (((Json.obj m).find "payloads").getD (.str "")) :=
    (get_ensure "payloads" "payloads" (.str "") m).trans (if_pos rfl)
  have hcontent : contentOf dump mediaRule (.obj (ensure "payloads" (.str "") m)) =
      contentOf dump mediaRule (.obj m) := by
    have hargs : argsOf mediaRule (.obj (ensure "payloads" (.str "") m)) =
        argsOf mediaRule (.obj m) := by
      have harg : ∀ location name, argOf mediaRule location name =
          (location.find name).getD (.str "") := fun _ _ => rfl
      refine List.map_congr_left fun name _ => ?_
      rw [harg, harg]
      by_cases hname : name = "payloads"
      · rw [hname, hpayloads, Option.getD_some]
      · rw [hfind name hname]
    have hformat : mediaRule.format.choose (.obj (ensure "payloads" (.str "") m)) =
        mediaRule.format.choose (.obj m) := by
      have hnum : hasValue (.obj (ensure "payloads" (.str "") m)) "numPorts" =
          hasValue (.obj m) "numPorts" := by
        rw [hasValue, hasValue, hfind "numPorts" (by decide)]
      exact congrArg (fun c : Bool => if c = true then _ else _) hnum
    have hneither : mediaRule.push ≠ "" ∨ mediaRule.name = "" := Or.inr rfl
    rw [contentOf, contentOf, hargs, formatted, formatted, if_pos hneither, if_pos hneither,
      hformat]
  rw [mediaLines, mediaLines, hcontent,
    linesOf_congr innerOrder (by decide) (by decide) hfind]

/-- The version that is ensured is read again. -/
theorem printable_version : Printable pf dump versionRule (.int 0) where
  prints := by
    refine ⟨[['0']], ⟨fun _ => ⟨['0'], rfl, rfl, rfl⟩, fun h => absurd rfl h, ?_, by decide, ?_⟩, ?_⟩
    · exact .cons (lang_many.mpr (List.all_eq_true.mp (by decide))) .nil
    · constructor <;> intro h <;> exact absurd h (by decide)
    · constructor <;> intro h <;> exact absurd h (by decide)
  members := fun h => absurd rfl h

/-- So is the name. -/
theorem printable_name : Printable pf dump nameRule (.str "-") where
  prints := by
    refine ⟨[['-']], ⟨fun _ => ⟨['-'], rfl, rfl, rfl⟩, fun h => absurd rfl h, ?_, by decide, ?_⟩, ?_⟩
    · exact .cons (lang_many.mpr (List.all_eq_true.mp (by decide))) .nil
    · constructor <;> intro h <;> exact absurd h (by decide)
    · constructor <;> intro h <;> exact absurd h (by decide)
  members := fun h => absurd rfl h

theorem get_completed (k : String) (session : Members) : get k (completed session) =
    if k = "name" then some ((get "name" session).getD (.str "-"))
    else if k = "version" then some ((get "version" session).getD (.int 0))
    else get k session := by
  have hname : get "name" (ensure "version" (.int 0) session) = get "name" session :=
    (get_ensure "name" "version" (.int 0) session).trans (if_neg (by decide))
  rw [completed, get_ensure, hname, get_ensure]

/-- The rules of the two, and the only one that looks for one of them in its objects. -/
theorem outerRules_of {p : Rule → Bool} {k rule : Rule} (h : outerRules.filter p = [k])
    (hrule : rule ∈ outerRules) (hp : p rule = true) : rule = k :=
  List.mem_singleton.mp (h ▸ List.mem_filter.mpr ⟨hrule, hp⟩)

theorem version_of_connection {v : Json} {g : List (List Char)}
    (h : Prints pf dump connectionRule v g) : v.find "version" ≠ none := by
  have hshows := h.named (by decide)
  rcases h.fits with _ | ⟨hversion, _⟩
  have hholds := holds_of_shows hshows 0 "version" rfl rfl
  intro hnone
  rw [hnone] at hholds
  obtain rfl := hholds
  obtain ⟨c, hc, -⟩ := lang_char.mp hversion
  cases hc

theorem completed_member {session : Members} (h : Session pf dump session) :
    ∀ rule ∈ outerRules, ∀ v, get rule.key (completed session) = some v →
      Member pf dump rule v := by
  intro rule hrule v hv
  rw [get_completed] at hv
  have hmember := h.location.member rule hrule
  split_ifs at hv with hname hversion
  · obtain rfl : rule = nameRule :=
      outerRules_of (p := fun r => r.key = "name") rfl hrule (decide_eq_true hname)
    cases hget : get "name" session with
    | some w =>
      rw [hget, Option.getD_some] at hv
      exact hmember v (hget.trans hv)
    | none =>
      rw [hget, Option.getD_none] at hv
      cases hv
      exact printable_name
  · obtain rfl : rule = versionRule :=
      outerRules_of (p := fun r => r.key = "version") rfl hrule (decide_eq_true hversion)
    cases hget : get "version" session with
    | some w =>
      rw [hget, Option.getD_some] at hv
      exact hmember v (hget.trans hv)
    | none =>
      rw [hget, Option.getD_none] at hv
      cases hv
      exact printable_version
  · exact hmember v hv

theorem completed_own {session : Members} (h : Session pf dump session) :
    ∀ rule ∈ outerRules, rule.push = "" → ∀ v, get rule.key (completed session) = some v →
      ∀ name ∈ rule.names, v.find name = none → get name (completed session) = none := by
  intro rule hrule hpush v hv name hname hnone
  have hstored := completed_member h rule hrule v hv
  rw [get_completed] at hv
  split_ifs at hv with hkey hkey
  · obtain rfl : rule = nameRule :=
      outerRules_of (p := fun r => r.key = "name") rfl hrule (decide_eq_true hkey)
    exact absurd hname List.not_mem_nil
  · obtain rfl : rule = versionRule :=
      outerRules_of (p := fun r => r.key = "version") rfl hrule (decide_eq_true hkey)
    exact absurd hname List.not_mem_nil
  have hother : name ≠ "name" ∧ name ≠ "version" := by
    have hconnection : ("version" ∈ rule.names ∨ "name" ∈ rule.names) → rule = connectionRule :=
      fun h => outerRules_of (p := fun r => "version" ∈ r.names || "name" ∈ r.names) rfl hrule
        (by simpa only [Bool.or_eq_true, decide_eq_true_eq] using h)
    constructor
    · rintro rfl
      obtain rfl := hconnection (Or.inr hname)
      exact absurd hname (by decide)
    · rintro rfl
      obtain rfl := hconnection (Or.inl hname)
      rw [Member, if_pos hpush] at hstored
      obtain ⟨g, hprints⟩ := hstored.prints
      exact version_of_connection hprints hnone
  rw [get_completed, if_neg hother.1, if_neg hother.2]
  exact h.location.own rule hrule hpush v hv name hname hnone

theorem session_completed {session : Members} (h : Session pf dump session) :
    Session pf dump (completed session) where
  sorted := sorted_ensure (sorted_ensure h.sorted)
  location := ⟨completed_member h, completed_own h⟩
  filled := by
    intro rule hrule hempty
    by_cases hpush : rule.push = ""
    · have hstored := completed_member h rule hrule _ hempty
      rw [Member, if_pos hpush] at hstored
      exact Bool.false_ne_true (printable_shown hstored).2
    rw [get_completed] at hempty
    split_ifs at hempty with hkey hkey
    · exact hpush (outerRules_of (p := fun r => r.key = "name") rfl hrule
        (decide_eq_true hkey) ▸ rfl)
    · exact hpush (outerRules_of (p := fun r => r.key = "version") rfl hrule
        (decide_eq_true hkey) ▸ rfl)
    · exact h.filled rule hrule hempty
  known := by
    intro k hmedia hk
    have hkeys : k ≠ "name" ∧ k ≠ "version" := by
      constructor <;>
      · rintro rfl
        exact hk (by decide)
    rw [get_completed, if_neg hkeys.1, if_neg hkeys.2]
    exact h.known k hmedia hk
  media := by
    obtain ⟨sections, hget, hsections⟩ := h.media
    refine ⟨sections, ?_, hsections⟩
    rw [get_completed, if_neg (by decide), if_neg (by decide), hget]

/-! ### The session -/

theorem prepared_ok {session : Members} {sections : List Members}
    (hmedia : get "media" session = some (.arr (sections.map .obj))) :
    prepared session = .ok (put "media" (.arr (sections.map fun m =>
      .obj (ensure "payloads" (.str "") m))) (completed session)) := by
  have hget : get "media" (completed session) = some (.arr (sections.map .obj)) := by
    rw [get_completed, if_neg (by decide), if_neg (by decide), hmedia]
  have hensure : ensure "media" (.arr []) (completed session) = completed session := by
    rw [ensure, hget]
  have hsections : (sections.map Json.obj).mapM withPayloads =
      .ok (sections.map fun m => .obj (ensure "payloads" (.str "") m)) := by
    clear hmedia hget
    have hstep : ∀ m : Members, withPayloads (.obj m) = .ok (.obj (ensure "payloads" (.str "") m)) := by
      intro m
      have hfind : (Json.obj m).find "payloads" = get "payloads" m := rfl
      rw [withPayloads, hfind, ensure]
      cases get "payloads" m <;> rfl
    induction sections with
    | nil => rfl
    | cons m sections ih =>
      rw [List.map_cons, List.mapM_cons, hstep, ih]
      rfl
  have hcompleted : ensure "media" (.arr []) (ensure "name" (.str "-")
      (ensure "version" (.int 0) session)) = completed session := hensure
  simp only [prepared, hcompleted, hget, Option.getD_some, hsections]
  rfl

/-- A session with a version and a name is printed as without them. -/
theorem write_completed {session : Members} {sections : List Members}
    (hmedia : get "media" session = some (.arr (sections.map .obj))) :
    write dump (.obj (completed session)) = write dump (.obj session) := by
  have hversion : ensure "version" (.int 0) (completed session) = completed session := by
    rw [ensure, get_completed, if_neg (by decide), if_pos rfl]
  have hname : ensure "name" (.str "-") (completed session) = completed session := by
    rw [ensure, get_completed, if_pos rfl]
  have htwice : completed (completed session) = completed session := by
    rw [completed, hversion, hname]
  have hmedia' : get "media" (completed session) = some (.arr (sections.map .obj)) := by
    rw [get_completed, if_neg (by decide), if_neg (by decide), hmedia]
  rw [write, write, prepared_ok hmedia, prepared_ok hmedia', htwice]

/-- The session's own lines are read as all but the sections. -/
theorem session_read {session : Members} (h : Session pf dump session) :
    ∃ own, readLines pf (linesOf dump outerOrder (.obj session)) [] = .ok own ∧
      put "media" ((get "media" session).getD .null) own = session := by
  have htype : ∀ tr ∈ ordered outerOrder, tr.1 ≠ 'm' := by
    intro tr htr heq
    have hmem := (mem_ordered htr).1
    rw [heq] at hmem
    exact absurd hmem (by decide)
  obtain ⟨own, hok, hsorted, hget⟩ := readLines_rules h.location
    (fun tr htr => ⟨htype tr htr, (mem_ordered htr).2, List.mem_map_of_mem htr⟩) outerKeys_nodup
    List.Pairwise.nil fun _ _ => Or.inl rfl
  refine ⟨own, by rw [linesOf_ordered, hok], ?_⟩
  have hkeys : (ordered outerOrder).map (·.2.key) = outerRules.map Rule.key := by
    rw [outerRules, List.map_map]
    rfl
  refine sorted_ext (sorted_put _ _ hsorted) h.sorted fun k => ?_
  rw [get_put, hget k, hkeys]
  split_ifs with hk hshown
  · obtain ⟨sections, hmedia, -⟩ := h.media
    rw [hk, hmedia, Option.getD_some]
  · rfl
  · by_cases hmem : k ∈ outerRules.map Rule.key
    · obtain ⟨rule, hrule, rfl⟩ := List.mem_map.mp hmem
      have hnot : shown (get rule.key session) = false := by
        rw [Bool.eq_false_iff]
        exact fun h => hshown ⟨hmem, h⟩
      exact ((shown_eq_false hnot).resolve_right (h.filled rule hrule)).symm
    · exact (h.known k hk hmem).symm

/-- The sections of a session, one behind the other. -/
theorem sections_read {sections : List Members} (h : ∀ m ∈ sections, Section pf dump m)
    (session : Members) (rest : List Members) :
    (sections.flatMap fun m => mediaLines dump (.obj m)).foldlM
      (fun st line => storeLine pf st (line.1 :: '=' :: line.2)) ⟨session, rest⟩ =
      .ok ⟨session, sections.reverse ++ rest⟩ := by
  induction sections generalizing rest with
  | nil => rfl
  | cons m sections ih =>
    obtain ⟨hm, hsections⟩ := List.forall_mem_cons.mp h
    obtain ⟨base, hbase, hsorted, hget⟩ := section_base hm
    have hplain := linesOf_plain innerOrder (by decide) hm.location
    have hlines := foldlM_section pf (fun line hline =>
      ⟨(hplain line hline).1, (hplain line hline).2.1⟩) session base rest
    rw [section_read hm hsorted hget] at hlines
    have hsection : (mediaLines dump (.obj m)).foldlM
        (fun st line => storeLine pf st (line.1 :: '=' :: line.2)) ⟨session, rest⟩ =
        .ok ⟨session, m :: rest⟩ := by
      rw [mediaLines, List.foldlM_cons, storeLine_media, hbase]
      exact hlines
    rw [List.flatMap_cons, List.foldlM_append, hsection]
    have hrest := ih hsections (m :: rest)
    rw [List.reverse_cons, List.append_assoc]
    exact hrest

/-- What is printed of a session is read as the session, with a version and a name. -/
theorem store_written {session : Members} (h : Session pf dump session) :
    ∃ text left, write dump (.obj session) = .ok (text, left) ∧
      store pf text = .ok (.obj (completed session)) := by
  have hcompleted := session_completed h
  obtain ⟨sections, hmedia, hsections⟩ := h.media
  let media := Json.arr (sections.map fun m => .obj (ensure "payloads" (.str "") m))
  refine ⟨_, _, by rw [write, prepared_ok hmedia], ?_⟩
  have hget : get "media" (put "media" media (completed session)) = some media := get_put_self ..
  have hlines : sessionLines dump (put "media" media (completed session)) =
      linesOf dump outerOrder (.obj (completed session)) ++
        sections.flatMap fun m => mediaLines dump (.obj m) := by
    have howned : linesOf dump outerOrder (.obj (put "media" media (completed session))) =
        linesOf dump outerOrder (.obj (completed session)) :=
      linesOf_congr outerOrder (by decide) (by decide) fun k hk => get_put_of_ne media hk _
    rw [sessionLines, howned, hget, Option.getD_some, Json.elems, List.flatMap_map]
    refine congrArg _ (List.flatMap_congr fun m _ => ?_)
    exact mediaLines_payloads m
  have houter := linesOf_plain outerOrder (by decide) hcompleted.location
  have hplain : ∀ line ∈ linesOf dump outerOrder (.obj (completed session)) ++
      (sections.flatMap fun m => mediaLines dump (.obj m)),
      line.1.isLower = true ∧ '\n' ∉ line.2 := by
    intro line hline
    rcases List.mem_append.mp hline with hline | hline
    · exact ⟨(houter line hline).1, (houter line hline).2.2⟩
    · obtain ⟨m, hm, hline⟩ := List.mem_flatMap.mp hline
      exact section_plain (hsections m hm) line hline
  obtain ⟨own, hown, hput⟩ := session_read hcompleted
  have hsession := foldlM_session pf (fun line hline =>
    ⟨(houter line hline).1, (houter line hline).2.1⟩) []
  rw [hown] at hsession
  have hread := sections_read hsections own []
  have hmedia' : (get "media" (completed session)).getD .null = .arr (sections.map .obj) := by
    rw [get_completed, if_neg (by decide), if_neg (by decide), hmedia, Option.getD_some]
  have hfold : (linesOf dump outerOrder (.obj (completed session)) ++
      sections.flatMap fun m => mediaLines dump (.obj m)).foldlM
      (fun st line => storeLine pf st (line.1 :: '=' :: line.2)) ⟨[], []⟩ =
      .ok ⟨own, sections.reverse⟩ := by
    rw [List.foldlM_append, hsession]
    rw [List.append_nil] at hread
    exact hread
  rw [hlines, store_printed hplain, hfold]
  have hend : put "media" (.arr (sections.reverse.reverse.map .obj)) own = completed session := by
    rw [List.reverse_reverse, ← hmedia', hput]
  exact congrArg (fun m => Except.ok (Json.obj m)) hend

end MediasoupClient.Sdptransform
