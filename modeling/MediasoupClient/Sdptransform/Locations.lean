import MediasoupClient.Sdptransform.FindRule

/-! The lines of a location, read again.

        location                                  lines                      location
        { mid: "0",                               a=rtpmap:111 opus/48000    { mid: "0",
          rtp: [ { payload: 111, ... } ] }        a=mid:0                      rtp: [ ... ] }

    The lines come in the order of the rules, not of the members, but each rule stores under a key of
    its own: what is read from the lines of one rule is its member, and the other members stay.

    An object that misses one of its names must not find it in its location, where `makeLine` looks
    for it next: a `fingerprint` without a `type` would get the section's. -/

namespace MediasoupClient.Sdptransform
open Lib Lib.Regex Sdp

section
variable (pf : Platform) (dump : Json → String)

/-- The key a rule stores under. -/
def Rule.key (rule : Rule) : String := if rule.push = "" then rule.name else rule.push

/-- A value that a rule prints on a line; an object has no members but the rule's. -/
structure Printable (rule : Rule) (v : Json) : Prop where
  prints : ∃ g, Prints pf dump rule v g
  members : rule.names ≠ [] → ∃ m, v = .obj m ∧ Sorted m ∧ ∀ k ∉ rule.names, get k m = none

/-- A member that a rule prints: a value, or an array with a line for each element. -/
def Member (rule : Rule) (v : Json) : Prop :=
  if rule.push = "" then Printable pf dump rule v
  else ∃ es, v = .arr es ∧ ∀ e ∈ es, Printable pf dump rule e

/-- A location whose members under the keys of the rules are printed by them. -/
structure Location (rules : List Rule) (location : Members) : Prop where
  member : ∀ rule ∈ rules, ∀ v, get rule.key location = some v → Member pf dump rule v
  own : ∀ rule ∈ rules, rule.push = "" → ∀ v, get rule.key location = some v →
    ∀ name ∈ rule.names, v.find name = none → get name location = none

end

variable {pf : Platform} {dump : Json → String}

/-! ### The table of rules -/

/-- A rule pushes objects, or it has a name; and every name has a type. -/
def Rule.wellFormed (rule : Rule) : Bool :=
  (rule.push = "" || (rule.name = "" && !rule.names.isEmpty)) &&
    (rule.push ≠ "" || rule.name ≠ "") && rule.names.length ≤ rule.types.length

theorem attributes_wellFormed : attributeRules.all Rule.wellFormed = true := by decide

theorem rulesMap_wellFormed {type : Char} (htype : type ≠ 'm') {rule : Rule}
    (hrule : rule ∈ rulesMap type) : rule.wellFormed = true := by
  unfold rulesMap at hrule
  split at hrule <;> first
    | exact absurd rfl htype
    | exact List.all_eq_true.mp attributes_wellFormed rule hrule
    | exact List.mem_singleton.mp hrule ▸ rfl
    | exact absurd hrule List.not_mem_nil

theorem Rule.pushed {rule : Rule} (h : rule.wellFormed = true) (hpush : rule.push ≠ "") :
    rule.name = "" ∧ rule.names ≠ [] ∧ rule.names.length ≤ rule.types.length := by
  simp only [Rule.wellFormed, hpush, decide_false, Bool.false_or, Bool.and_eq_true,
    decide_eq_true_eq, Bool.not_eq_true', List.isEmpty_eq_false_iff] at h
  exact ⟨h.1.1.1, h.1.1.2, h.2⟩

theorem Rule.named {rule : Rule} (h : rule.wellFormed = true) (hpush : rule.push = "") :
    rule.name ≠ "" ∧ rule.names.length ≤ rule.types.length := by
  simp only [Rule.wellFormed, hpush, decide_true, Bool.true_or, Bool.true_and, ne_eq,
    not_true_eq_false, decide_false, Bool.false_or, Bool.and_eq_true, decide_eq_true_eq,
    decide_not, Bool.not_eq_true', decide_eq_false_iff_not] at h
  exact h

/-! ### What a line says -/

/-- The texts of an object are what its members are printed as. -/
theorem map_argText {names : List String} {types : List ValueType} {v : Json}
    {g : List (List Char)} (hlen : names.length ≤ types.length)
    (h : List.Forall₂ (fun nt t => Holds pf dump nt.2 (v.find nt.1) t) (names.zip types) g)
    {f : String → Json} (hf : ∀ name ∈ names, f name = (v.find name).getD (.str "")) :
    (names.map f).map (argText dump) = g := by
  induction names generalizing types g with
  | nil =>
    cases h
    rfl
  | cons name names ih =>
    cases types with
    | nil => cases hlen
    | cons type types =>
      obtain ⟨hname, hnames⟩ := List.forall_mem_cons.mp hf
      rcases h with _ | ⟨hholds, h⟩
      rw [List.map_cons, List.map_cons, ih (Nat.le_of_succ_le_succ hlen) h hnames, hname]
      cases hv : v.find name with
      | none =>
        rw [hv] at hholds
        rw [hholds]
        rfl
      | some w =>
        rw [hv] at hholds
        rw [Option.getD_some, hholds.2.1]

theorem contentOf_element {rule : Rule} {e : Json} {g : List (List Char)} (hname : rule.name = "")
    (hnames : rule.names ≠ []) (hlen : rule.names.length ≤ rule.types.length)
    (h : Prints pf dump rule e g) : contentOf dump rule e = rule.line e g := by
  have hargs : (rule.names.map (argOf rule e)).map (argText dump) = g :=
    map_argText hlen (h.named hnames) fun name _ => by
      unfold argOf
      rw [if_pos hname]
      rfl
  rw [contentOf, formatted, if_pos (Or.inr hname), argsOf, if_neg hnames, hargs, Rule.line]

theorem contentOf_value {rule : Rule} {location : Members} {v : Json} {g : List (List Char)}
    (hpush : rule.push = "") (hname : rule.name ≠ "") (hlen : rule.names.length ≤ rule.types.length)
    (hv : get rule.name location = some v) (h : Prints pf dump rule v g)
    (hown : ∀ name ∈ rule.names, v.find name = none → get name location = none) :
    contentOf dump rule (.obj location) = rule.line v g := by
  have hfind : (Json.obj location).find rule.name = some v := hv
  have hargs : (argsOf rule (.obj location)).map (argText dump) = g := by
    unfold argsOf
    by_cases hnames : rule.names = []
    · obtain ⟨t, rfl, rfl, -⟩ := h.plain hnames
      rw [if_pos hnames, hfind]
      rfl
    · rw [if_neg hnames]
      refine map_argText hlen (h.named hnames) fun name hmem => ?_
      unfold argOf
      rw [if_neg hname, hfind, Option.bind_some]
      cases hw : v.find name with
      | some w => rfl
      | none =>
        have hnone : (Json.obj location).find name = none := hown name hmem hw
        rw [hnone]
        rfl
  have hneither : ¬ (rule.push ≠ "" ∨ rule.name = "") := not_or.mpr ⟨not_not.mpr hpush, hname⟩
  rw [contentOf, formatted, if_neg hneither, hfind, hargs, Option.getD_some, Rule.line]

/-! ### What is read from it -/

/-- Members with a text come back, the others are left alone. -/
theorem attachNames_shows {names : List String} {types : List ValueType} {v : Json}
    {g : List (List Char)} (hlen : names.length ≤ types.length)
    (h : List.Forall₂ (fun nt t => Holds pf dump nt.2 (v.find nt.1) t) (names.zip types) g)
    {location : Members} (hsorted : Sorted location) :
    ∃ location', attachNames pf names types g location = .ok location' ∧ Sorted location' ∧
      ∀ k, get k location' =
        if k ∈ names then (v.find k).or (get k location) else get k location := by
  induction names generalizing types g location with
  | nil => exact ⟨location, by cases h; rfl, hsorted, fun k => by rw [if_neg List.not_mem_nil]⟩
  | cons name names ih =>
    cases types with
    | nil => cases hlen
    | cons type types =>
      rcases h with _ | ⟨hholds, h⟩
      rename_i t g
      cases hv : v.find name with
      | none =>
        rw [hv] at hholds
        obtain rfl : t = [] := hholds
        obtain ⟨location', hok, hsorted', hget⟩ := ih (Nat.le_of_succ_le_succ hlen) h hsorted
        refine ⟨location', by rw [attachNames, if_pos rfl, hok], hsorted', fun k => ?_⟩
        rw [hget k]
        by_cases hk : k = name
        · subst hk
          rw [hv, Option.none_or, if_pos (List.mem_cons_self ..), ite_self]
        · simp only [List.mem_cons, hk, false_or]
      | some w =>
        rw [hv] at hholds
        obtain ⟨hne, -, hread⟩ := hholds
        obtain ⟨location', hok, hsorted', hget⟩ :=
          ih (Nat.le_of_succ_le_succ hlen) h (sorted_put name w hsorted)
        refine ⟨location', ?_, hsorted', fun k => ?_⟩
        · rw [attachNames, if_neg hne, hread]
          exact hok
        · rw [hget k]
          by_cases hk : k = name
          · subst hk
            rw [hv, get_put_self, Option.some_or, ite_self, if_pos (List.mem_cons_self ..),
              Option.some_or]
          · rw [get_put_of_ne _ hk]
            simp only [List.mem_cons, hk, false_or]

/-- An object comes back whole. -/
theorem attachNames_object {rule : Rule} {m : Members} {g : List (List Char)}
    (hlen : rule.names.length ≤ rule.types.length) (hnames : rule.names ≠ [])
    (h : Prints pf dump rule (.obj m) g) (hsorted : Sorted m)
    (hm : ∀ k ∉ rule.names, get k m = none) :
    attachNames pf rule.names rule.types g [] = .ok m := by
  obtain ⟨m', hok, hsorted', hget⟩ :=
    attachNames_shows hlen (h.named hnames) List.Pairwise.nil
  have heq : m' = m := by
    refine sorted_ext hsorted' hsorted fun k => ?_
    rw [hget k]
    split_ifs with hk
    · exact Option.or_none
    · exact (hm k hk).symm
  rw [hok, heq]

/-- A line for each element puts it behind the others. -/
theorem storeRules_element {type : Char} (htype : type ≠ 'm') {rule : Rule}
    (hrule : rule ∈ rulesMap type) (hpush : rule.push ≠ "") {e : Json}
    (he : Printable pf dump rule e) (location : Members) :
    storeRules pf type (contentOf dump rule e) location =
      .ok (put rule.push (.arr (((get rule.push location).getD .null).elems ++ [e])) location) := by
  obtain ⟨hname, hnames, hlen⟩ := Rule.pushed (rulesMap_wellFormed htype hrule) hpush
  obtain ⟨g, hprints⟩ := he.prints
  obtain ⟨m, rfl, hsorted, hm⟩ := he.members hnames
  rw [contentOf_element hname hnames hlen hprints, storeRules, findRule_line hrule hprints]
  simp only [storeReg]
  rw [if_pos hpush, attachNames_object hlen hnames hprints hsorted hm]
  rfl

/-- A named value is stored under its name. -/
theorem storeRules_value {type : Char} (htype : type ≠ 'm') {rule : Rule}
    (hrule : rule ∈ rulesMap type) (hpush : rule.push = "") {m : Members} {v : Json}
    (hv : get rule.name m = some v) (h : Printable pf dump rule v)
    (hown : ∀ name ∈ rule.names, v.find name = none → get name m = none) {location : Members}
    (hfresh : get rule.name location = none) :
    storeRules pf type (contentOf dump rule (.obj m)) location = .ok (put rule.name v location) := by
  obtain ⟨hname, hlen⟩ := Rule.named (rulesMap_wellFormed htype hrule) hpush
  obtain ⟨g, hprints⟩ := h.prints
  rw [contentOf_value hpush hname hlen hv hprints hown, storeRules, findRule_line hrule hprints]
  simp only [storeReg]
  rw [if_neg (not_not.mpr hpush), if_neg hname]
  by_cases hnames : rule.names = []
  · obtain ⟨t, rfl, -, hread⟩ := hprints.plain hnames
    rw [if_pos hnames, List.headD_cons, hread]
    rfl
  · obtain ⟨members, rfl, hsorted, hmembers⟩ := h.members hnames
    rw [if_neg hnames, hfresh, attachNames_object hlen hnames hprints hsorted hmembers]
    rfl

/-! ### The lines of one rule, and of all -/

/-- `storeRules`, line by line. -/
def readLines (pf : Platform) (lines : List (Char × List Char)) (location : Members) :
    Except Invalid Members :=
  lines.foldlM (fun location line => storeRules pf line.1 line.2 location) location

theorem readLines_append (lines lines' : List (Char × List Char)) (location : Members) :
    readLines pf (lines ++ lines') location =
      (readLines pf lines location).bind (readLines pf lines') := by
  exact List.foldlM_append

/-- Whether a member has a line. -/
def shown : Option Json → Bool
  | none => false
  | some (.arr []) => false
  | some _ => true

theorem shown_eq_false {v : Option Json} (h : shown v = false) :
    v = none ∨ v = some (.arr []) := by
  unfold shown at h
  split at h
  · exact Or.inl rfl
  · exact Or.inr rfl
  · cases h

theorem readLines_elements {type : Char} (htype : type ≠ 'm') {rule : Rule}
    (hrule : rule ∈ rulesMap type) (hpush : rule.push ≠ "") {es : List Json}
    (hes : ∀ e ∈ es, Printable pf dump rule e) {location : Members} (hsorted : Sorted location) :
    ∃ location', readLines pf (es.map fun e => (type, contentOf dump rule e)) location =
        .ok location' ∧ Sorted location' ∧
      ∀ k, get k location' = if k = rule.push ∧ es ≠ [] then
        some (.arr (((get rule.push location).getD .null).elems ++ es)) else get k location := by
  induction es generalizing location with
  | nil => exact ⟨location, rfl, hsorted, fun k => by rw [if_neg fun h => h.2 rfl]⟩
  | cons e es ih =>
    obtain ⟨he, hes⟩ := List.forall_mem_cons.mp hes
    obtain ⟨location', hok, hsorted', hget⟩ := ih hes (sorted_put rule.push
      (.arr (((get rule.push location).getD .null).elems ++ [e])) hsorted)
    refine ⟨location', ?_, hsorted', fun k => ?_⟩
    · rw [List.map_cons, readLines, List.foldlM_cons,
        storeRules_element htype hrule hpush he location]
      exact hok
    · rw [hget k]
      by_cases hk : k = rule.push
      · subst hk
        have hfilled : rule.push = rule.push ∧ e :: es ≠ [] := ⟨rfl, List.cons_ne_nil e es⟩
        rw [get_put_self, Option.getD_some, Json.elems, if_pos hfilled]
        by_cases hnil : es = []
        · rw [if_neg fun h => h.2 hnil, hnil]
        · rw [if_pos ⟨rfl, hnil⟩, List.append_assoc, List.singleton_append]
      · rw [if_neg fun h => hk h.1, if_neg fun h => hk h.1, get_put_of_ne _ hk]

/-- A location that has nothing under the key of a rule. -/
def Fresh (rule : Rule) (location : Members) : Prop :=
  get rule.key location = none ∨ rule.push ≠ "" ∧ get rule.key location = some (.arr [])

/-- A value that is printed is neither null nor an empty array. -/
theorem printable_shown {rule : Rule} {v : Json} (h : Printable pf dump rule v) :
    (!v.isNull) = true ∧ shown (some v) = true := by
  by_cases hnames : rule.names = []
  · obtain ⟨g, hprints⟩ := h.prints
    obtain ⟨t, -, -, hread⟩ := hprints.plain hnames
    rcases toType_ok hread with hnum | rfl
    · cases v <;> first | exact ⟨rfl, rfl⟩ | cases hnum
    · exact ⟨rfl, rfl⟩
  · obtain ⟨m, rfl, -⟩ := h.members hnames
    exact ⟨rfl, rfl⟩

/-- What is read from the lines of a rule is the member they have been printed of. -/
theorem readLines_rule {type : Char} (htype : type ≠ 'm') {rules : List Rule} {rule : Rule}
    (hrule : rule ∈ rulesMap type) (hmem : rule ∈ rules) {m : Members}
    (hm : Location pf dump rules m) {location : Members} (hsorted : Sorted location)
    (hfresh : Fresh rule location) :
    ∃ location', readLines pf ((ruleContents dump (.obj m) rule).map (type, ·)) location =
        .ok location' ∧ Sorted location' ∧
      ∀ k, get k location' = if k = rule.key ∧ shown (get k m) = true then get k m
        else get k location := by
  have hform := rulesMap_wellFormed htype hrule
  by_cases hpush : rule.push = ""
  · have hkey : rule.key = rule.name := if_pos hpush
    have hname := (Rule.named hform hpush).1
    have hmember := hm.member rule hmem
    have hown := hm.own rule hmem hpush
    rw [hkey] at hmember hown ⊢
    rw [Fresh, hkey] at hfresh
    cases hv : get rule.name m with
    | none =>
      have hnone : ruleContents dump (.obj m) rule = [] := by
        have hfind : (Json.obj m).find rule.name = none := hv
        rw [ruleContents, hfind, Option.any_none, if_neg fun h => Bool.false_ne_true h.2,
          if_neg (not_not.mpr hpush)]
      refine ⟨location, by rw [hnone]; rfl, hsorted, fun k => ?_⟩
      rw [if_neg]
      rintro ⟨rfl, hshown⟩
      rw [hv] at hshown
      cases hshown
    | some v =>
      have hp : Printable pf dump rule v := by
        have hstored := hmember v hv
        rwa [Member, if_pos hpush] at hstored
      obtain ⟨hnull, hshown⟩ := printable_shown hp
      have hone : ruleContents dump (.obj m) rule = [contentOf dump rule (.obj m)] := by
        have hfind : (Json.obj m).find rule.name = some v := hv
        rw [ruleContents, hfind, Option.any_some, hnull, if_pos ⟨hname, rfl⟩]
      refine ⟨put rule.name v location, ?_, sorted_put _ _ hsorted, fun k => ?_⟩
      · have happly := storeRules_value htype hrule hpush hv hp (hown v hv)
          (hfresh.resolve_right fun h => h.1 hpush)
        rw [hone, List.map_singleton, readLines, List.foldlM_cons, happly]
        rfl
      · rw [get_put]
        by_cases hk : k = rule.name
        · subst hk
          rw [if_pos rfl, hv, if_pos ⟨rfl, hshown⟩]
        · rw [if_neg hk, if_neg fun h => hk h.1]
  · have hkey : rule.key = rule.push := if_neg hpush
    have hname := (Rule.pushed hform hpush).1
    have hmember := hm.member rule hmem
    rw [hkey] at hmember ⊢
    rw [Fresh, hkey] at hfresh
    have hbase : ((get rule.push location).getD .null).elems = [] := by
      rcases hfresh with hnone | ⟨-, harr⟩
      · rw [hnone]
        rfl
      · rw [harr]
        rfl
    cases hv : get rule.push m with
    | none =>
      have hlines : ruleContents dump (.obj m) rule = [] := by
        have hfind : (Json.obj m).find rule.push = none := hv
        rw [ruleContents, if_neg fun h => h.1 hname, if_pos hpush, hfind]
      refine ⟨location, by rw [hlines]; rfl, hsorted, fun k => ?_⟩
      rw [if_neg]
      rintro ⟨rfl, hshown⟩
      rw [hv] at hshown
      cases hshown
    | some v =>
      have hstored := hmember v hv
      rw [Member, if_neg hpush] at hstored
      obtain ⟨es, rfl, hes⟩ := hstored
      have hlines : ruleContents dump (.obj m) rule = es.map (contentOf dump rule) := by
        have hfind : (Json.obj m).find rule.push = some (.arr es) := hv
        rw [ruleContents, if_neg fun h => h.1 hname, if_pos hpush, hfind]
      obtain ⟨location', hok, hsorted', hget⟩ :=
        readLines_elements htype hrule hpush hes hsorted
      refine ⟨location', ?_, hsorted', fun k => ?_⟩
      · rw [hlines, List.map_map]
        exact hok
      · rw [hget k, hbase, List.nil_append]
        by_cases hk : k = rule.push
        · subst hk
          rw [hv]
          cases es with
          | nil => rw [if_neg fun h => h.2 rfl, if_neg fun h => Bool.false_ne_true h.2]
          | cons e es =>
            have hfilled : rule.push = rule.push ∧ e :: es ≠ [] := ⟨rfl, List.cons_ne_nil e es⟩
            rw [if_pos hfilled, if_pos ⟨rfl, rfl⟩]
        · rw [if_neg fun h => hk h.1, if_neg fun h => hk h.1]

/-- The rules of a location with the types of their lines. -/
def ordered (order : List Char) : List (Char × Rule) :=
  order.flatMap fun type => (rulesMap type).map (type, ·)

theorem linesOf_ordered (order : List Char) (location : Json) : linesOf dump order location =
    (ordered order).flatMap fun tr => (ruleContents dump location tr.2).map (tr.1, ·) := by
  rw [linesOf, ordered, List.flatMap_assoc]
  refine List.flatMap_congr fun type _ => ?_
  rw [List.flatMap_map]

/-- The rules of a location take turns, each with a key of its own. -/
theorem readLines_rules {rules : List Rule} {m : Members} (hm : Location pf dump rules m)
    {trs : List (Char × Rule)} (htrs : ∀ tr ∈ trs, tr.1 ≠ 'm' ∧ tr.2 ∈ rulesMap tr.1 ∧ tr.2 ∈ rules)
    (hkeys : (trs.map (·.2.key)).Nodup) {location : Members} (hsorted : Sorted location)
    (hfresh : ∀ tr ∈ trs, Fresh tr.2 location) :
    ∃ location', readLines pf
        (trs.flatMap fun tr => (ruleContents dump (.obj m) tr.2).map (tr.1, ·)) location =
        .ok location' ∧ Sorted location' ∧
      ∀ k, get k location' = if k ∈ trs.map (·.2.key) ∧ shown (get k m) = true then get k m
        else get k location := by
  induction trs generalizing location with
  | nil => exact ⟨location, rfl, hsorted, fun k => by rw [if_neg fun h => List.not_mem_nil h.1]⟩
  | cons tr trs ih =>
    obtain ⟨⟨htype, hrule, hmem⟩, htrs⟩ := List.forall_mem_cons.mp htrs
    obtain ⟨hfresh, hfreshes⟩ := List.forall_mem_cons.mp hfresh
    obtain ⟨hkey, hkeys⟩ := List.nodup_cons.mp hkeys
    obtain ⟨location₁, hok₁, hsorted₁, hget₁⟩ :=
      readLines_rule htype hrule hmem hm hsorted hfresh
    have hfreshes₁ : ∀ tr' ∈ trs, Fresh tr'.2 location₁ := by
      intro tr' htr'
      have hne : tr'.2.key ≠ tr.2.key := fun heq =>
        hkey (List.mem_map.mpr ⟨tr', htr', heq⟩)
      rw [Fresh, hget₁, if_neg fun h => hne h.1]
      exact hfreshes tr' htr'
    obtain ⟨location₂, hok₂, hsorted₂, hget₂⟩ := ih htrs hkeys hsorted₁ hfreshes₁
    refine ⟨location₂, ?_, hsorted₂, fun k => ?_⟩
    · rw [List.flatMap_cons, readLines_append, hok₁]
      exact hok₂
    · rw [hget₂ k, hget₁ k, List.map_cons]
      by_cases hk : k = tr.2.key
      · subst hk
        rw [if_neg fun h => hkey h.1]
        simp only [List.mem_cons, true_or, true_and]
      · simp only [List.mem_cons, hk, false_or, false_and, if_false]

end MediasoupClient.Sdptransform
