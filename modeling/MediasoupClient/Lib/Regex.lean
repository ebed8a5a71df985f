import Mathlib.Data.List.Forall2
import Mathlib.Data.List.TakeWhile

/-! Regular expressions with groups, matched the way a backtracking engine does.

    `run r s` lists every way to match a begin of `s`, in the order in which the engine tries them:
    an alternative in front of the next one, a repetition as long as possible before a shorter one.
    The match is the first of them. Each way says what the groups hold, a group that is not matched
    holds the empty text, and what is left of `s`.

        run (many digit) "12a"          =  [ ([], "a"), ([], "2a"), ([], "12a") ]
        run (group (many digit)) "12a"  =  [ (["12"], "a"), (["1"], "2a"), ([""], "12a") ]

    `Reads` says what a text that is matched looks like, and `first_seq` puts the first match of two
    parts together: the engine comes back to the first part only if the second one fails. -/

namespace Lib

inductive Regex where
  | chars (cs : List Char)
  | char (p : Char → Bool)
  | many (p : Char → Bool)
  | seq (r s : Regex)
  | alt (r s : Regex)
  | star (r : Regex)
  | group (r : Regex)
  | eol

namespace Regex

/-- Characters one after the other. -/
def lit (s : String) : Regex := .chars s.toList

/-- `[...]+`. -/
def many1 (p : Char → Bool) : Regex := .seq (.char p) (.many p)

/-- `(?:...)?`. -/
def opt (r : Regex) : Regex := .alt r (.chars [])

/-- Parts one after the other. -/
def concat : List Regex → Regex
  | [] => .chars []
  | [r] => r
  | r :: rs => .seq r (concat rs)

/-- A group of such characters. -/
def field (p : Char → Bool) : Regex := .group (.many p)

/-- `a|b|...`. -/
def anyOf : List String → Regex
  | [] => .chars []
  | [text] => lit text
  | text :: texts => .alt (lit text) (anyOf texts)

/-- `(a|b|...)`. -/
def oneOf (texts : List String) : Regex := .group (anyOf texts)

/-- The number of groups. -/
def groups : Regex → ℕ
  | chars _ => 0
  | char _ => 0
  | many _ => 0
  | seq r s => groups r + groups s
  | alt r s => groups r + groups s
  | star _ => 0
  | group r => groups r + 1
  | eol => 0

/-- Groups that are not matched. -/
def blank (r : Regex) : List (List Char) := List.replicate r.groups []

/-- What is left behind a begin of such characters, the longest one first. -/
def spans (p : Char → Bool) : List Char → List (List Char)
  | [] => [[]]
  | c :: cs => if p c then spans p cs ++ [c :: cs] else [c :: cs]

/-- As many steps as possible first; a step that takes nothing is none. -/
def iterate (step : List Char → List (List Char)) : ℕ → List Char → List (List Char)
  | 0, s => [s]
  | n + 1, s => ((step s).filter (·.length < s.length)).flatMap (iterate step n) ++ [s]

/-- Every way to match a begin of the text, with its groups and with what is left. -/
def run : Regex → List Char → List (List (List Char) × List Char)
  | chars cs, s => ((s.dropPrefix? cs).map ([], ·)).toList
  | char p, s =>
    match s with
    | [] => []
    | c :: cs => if p c then [([], cs)] else []
  | many p, s => (spans p s).map ([], ·)
  | seq r k, s => (run r s).flatMap fun m => (run k m.2).map fun m' => (m.1 ++ m'.1, m'.2)
  | alt r k, s => ((run r s).map fun m => (m.1 ++ k.blank, m.2)) ++
      (run k s).map fun m => (r.blank ++ m.1, m.2)
  | star r, s => (iterate (fun s => (run r s).map (·.2)) s.length s).map ([], ·)
  | group r, s => (run r s).map fun m => (s.take (s.length - m.2.length) :: m.1, m.2)
  | eol, s => if s = [] then [([], [])] else []

theorem run_chars (cs s : List Char) :
    run (.chars cs) s = ((s.dropPrefix? cs).map ([], ·)).toList := rfl

theorem run_char (p : Char → Bool) (c : Char) (cs : List Char) :
    run (.char p) (c :: cs) = if p c then [([], cs)] else [] := rfl

theorem run_many (p : Char → Bool) (s : List Char) : run (.many p) s = (spans p s).map ([], ·) := rfl

theorem run_seq (r k : Regex) (s : List Char) : run (.seq r k) s =
    (run r s).flatMap fun m => (run k m.2).map fun m' => (m.1 ++ m'.1, m'.2) := rfl

theorem run_alt (r k : Regex) (s : List Char) : run (.alt r k) s =
    ((run r s).map fun m => (m.1 ++ k.blank, m.2)) ++
      (run k s).map fun m => (r.blank ++ m.1, m.2) := rfl

theorem run_star (r : Regex) (s : List Char) : run (.star r) s =
    (iterate (fun s => (run r s).map (·.2)) s.length s).map ([], ·) := rfl

theorem run_group (r : Regex) (s : List Char) : run (.group r) s =
    (run r s).map fun m => (s.take (s.length - m.2.length) :: m.1, m.2) := rfl

theorem run_eol (s : List Char) : run .eol s = if s = [] then [([], [])] else [] := rfl

/-- The match at the begin of the text. -/
def first (r : Regex) (s : List Char) : Option (List (List Char) × List Char) := (run r s).head?

/-- The match at the leftmost place that has one. -/
def leftmost (r : Regex) : List Char → Option (List (List Char) × List Char)
  | [] => first r []
  | c :: cs => (first r (c :: cs)).or (leftmost r cs)

/-! ### What is matched -/

/-- A text that an expression can match, and what the groups hold. -/
inductive Reads : Regex → List Char → List (List Char) → Prop
  | chars (cs : List Char) : Reads (.chars cs) cs []
  | char {p : Char → Bool} {c : Char} (h : p c = true) : Reads (.char p) [c] []
  | many {p : Char → Bool} {cs : List Char} (h : ∀ c ∈ cs, p c = true) : Reads (.many p) cs []
  | seq {r k : Regex} {u v : List Char} {g g' : List (List Char)} (h : Reads r u g)
      (h' : Reads k v g') : Reads (.seq r k) (u ++ v) (g ++ g')
  | left {r k : Regex} {u : List Char} {g : List (List Char)} (h : Reads r u g) :
      Reads (.alt r k) u (g ++ k.blank)
  | right {r k : Regex} {u : List Char} {g : List (List Char)} (h : Reads k u g) :
      Reads (.alt r k) u (r.blank ++ g)
  | done (r : Regex) : Reads (.star r) [] []
  | again {r : Regex} {u v : List Char} {g : List (List Char)} (h : Reads r u g)
      (h' : Reads (.star r) v []) : Reads (.star r) (u ++ v) []
  | group {r : Regex} {u : List Char} {g : List (List Char)} (h : Reads r u g) :
      Reads (.group r) u (u :: g)
  | eol : Reads .eol [] []

theorem Reads.length {r : Regex} {u : List Char} {g : List (List Char)} (h : Reads r u g) :
    g.length = r.groups := by
  induction h with
  | seq _ _ ih ih' => rw [List.length_append, ih, ih', groups]
  | left _ ih => rw [List.length_append, ih, blank, List.length_replicate, groups]
  | right _ ih => rw [List.length_append, ih, blank, List.length_replicate, groups]
  | group _ ih => rw [List.length_cons, ih, groups]
  | _ => rfl

/-- What a group holds is a part of the text. -/
theorem Reads.within {r : Regex} {u : List Char} {g : List (List Char)} (h : Reads r u g) :
    ∀ t ∈ g, t <:+: u := by
  have hblank : ∀ (r : Regex) (u : List Char), ∀ t ∈ r.blank, t <:+: u := by
    intro r u t ht
    rw [List.eq_of_mem_replicate ht]
    exact List.nil_infix
  induction h with
  | @seq r k u v g g' _ _ ih ih' =>
    intro t ht
    rcases List.mem_append.mp ht with ht | ht
    · exact (ih t ht).trans (List.prefix_append u v).isInfix
    · exact (ih' t ht).trans (List.suffix_append u v).isInfix
  | left _ ih => exact fun t ht => (List.mem_append.mp ht).elim (ih t) (hblank _ _ t)
  | right _ ih => exact fun t ht => (List.mem_append.mp ht).elim (hblank _ _ t) (ih t)
  | group _ ih => exact List.forall_mem_cons.mpr ⟨List.infix_refl _, ih⟩
  | _ => exact fun t ht => absurd ht List.not_mem_nil

/-- The texts of an expression. -/
def Lang (r : Regex) (u : List Char) : Prop := ∃ g, Reads r u g

/-- What each group can hold; one that need not be matched can be empty. -/
def classes : Regex → List (List Char → Prop)
  | seq r k => classes r ++ classes k
  | alt r k => (classes r ++ classes k).map fun P t => t = [] ∨ P t
  | group r => Lang r :: classes r
  | _ => []

theorem length_classes (r : Regex) : r.classes.length = r.groups := by
  induction r with
  | seq r k ihr ihk => rw [classes, List.length_append, ihr, ihk, groups]
  | alt r k ihr ihk => rw [classes, List.length_map, List.length_append, ihr, ihk, groups]
  | group r ih => rw [classes, List.length_cons, ih, groups]
  | _ => rfl

/-- Groups that are all in their classes. -/
def Fits (r : Regex) (g : List (List Char)) : Prop := List.Forall₂ (fun P t => P t) r.classes g

theorem Reads.fits {r : Regex} {u : List Char} {g : List (List Char)} (h : Reads r u g) :
    r.Fits g := by
  have hmap : ∀ {Ps : List (List Char → Prop)} {g : List (List Char)},
      List.Forall₂ (fun P t => P t) Ps g →
      List.Forall₂ (fun P t => P t) (Ps.map fun P t => t = [] ∨ P t) g := fun hPs =>
    List.forall₂_map_left_iff.mpr (hPs.imp fun _ _ ht => Or.inr ht)
  have hblank : ∀ {Ps : List (List Char → Prop)} {n : ℕ}, Ps.length = n →
      List.Forall₂ (fun P t => P t) (Ps.map fun P t => t = [] ∨ P t) (List.replicate n []) := by
    rintro Ps _ rfl
    induction Ps with
    | nil => exact .nil
    | cons P Ps ih => exact .cons (Or.inl rfl) ih
  unfold Fits
  induction h with
  | seq _ _ ih ih' => exact List.rel_append ih ih'
  | @left r k u g h ih =>
    rw [classes, List.map_append]
    exact List.rel_append (hmap ih) (hblank (length_classes k))
  | @right r k u g h ih =>
    rw [classes, List.map_append]
    exact List.rel_append (hblank (length_classes r)) (hmap ih)
  | @group r u g h ih => exact .cons ⟨g, h⟩ ih
  | _ => exact .nil

theorem lang_many {p : Char → Bool} {u : List Char} :
    Lang (.many p) u ↔ ∀ c ∈ u, p c = true := by
  refine ⟨?_, fun h => ⟨[], .many h⟩⟩
  rintro ⟨_, h⟩
  cases h with
  | many h => exact h

theorem lang_char {p : Char → Bool} {u : List Char} :
    Lang (.char p) u ↔ ∃ c, u = [c] ∧ p c = true := by
  refine ⟨?_, fun ⟨c, hu, h⟩ => hu ▸ ⟨[], .char h⟩⟩
  rintro ⟨_, h⟩
  cases h with
  | char h => exact ⟨_, rfl, h⟩

theorem lang_chars {cs u : List Char} : Lang (.chars cs) u ↔ u = cs := by
  refine ⟨?_, fun h => ⟨[], h ▸ .chars u⟩⟩
  rintro ⟨_, h⟩
  cases h with
  | chars => rfl

theorem lang_eol {u : List Char} : Lang .eol u ↔ u = [] := by
  refine ⟨?_, fun h => ⟨[], h ▸ .eol⟩⟩
  rintro ⟨_, h⟩
  cases h with
  | eol => rfl

theorem lang_alt {r k : Regex} {u : List Char} : Lang (.alt r k) u ↔ Lang r u ∨ Lang k u := by
  constructor
  · rintro ⟨_, h⟩
    cases h with
    | left h => exact Or.inl ⟨_, h⟩
    | right h => exact Or.inr ⟨_, h⟩
  · rintro (⟨_, h⟩ | ⟨_, h⟩)
    · exact ⟨_, .left h⟩
    · exact ⟨_, .right h⟩

theorem lang_seq {r k : Regex} {u : List Char} :
    Lang (.seq r k) u ↔ ∃ v w, u = v ++ w ∧ Lang r v ∧ Lang k w := by
  constructor
  · rintro ⟨_, h⟩
    cases h with
    | seq h h' => exact ⟨_, _, rfl, ⟨_, h⟩, _, h'⟩
  · rintro ⟨v, w, rfl, ⟨_, h⟩, _, h'⟩
    exact ⟨_, .seq h h'⟩

theorem lang_group {r : Regex} {u : List Char} : Lang (.group r) u ↔ Lang r u := by
  constructor
  · rintro ⟨_, h⟩
    cases h with
    | group h => exact ⟨_, h⟩
  · rintro ⟨_, h⟩
    exact ⟨_, .group h⟩

theorem lang_star {r : Regex} {u : List Char} (h : Lang (.star r) u) :
    ∃ us : List (List Char), u = us.flatten ∧ ∀ v ∈ us, Lang r v := by
  have hall : ∀ {k : Regex} {u : List Char} {g : List (List Char)}, Reads k u g → k = .star r →
      ∃ us : List (List Char), u = us.flatten ∧ ∀ v ∈ us, Lang r v := by
    intro k u g h hk
    induction h with
    | done _ => exact ⟨[], rfl, fun v hv => absurd hv List.not_mem_nil⟩
    | @again _ u v _ h _ _ ih =>
      cases hk
      obtain ⟨us, rfl, hus⟩ := ih rfl
      exact ⟨u :: us, rfl, List.forall_mem_cons.mpr ⟨⟨_, h⟩, hus⟩⟩
    | _ => cases hk
  obtain ⟨g, h⟩ := h
  exact hall h rfl

theorem lang_many1 {p : Char → Bool} {u : List Char} :
    Lang (many1 p) u ↔ u ≠ [] ∧ ∀ c ∈ u, p c = true := by
  rw [many1, lang_seq]
  simp only [lang_char, lang_many]
  constructor
  · rintro ⟨_, w, rfl, ⟨c, rfl, hc⟩, hw⟩
    exact ⟨List.cons_ne_nil c w, List.forall_mem_cons.mpr ⟨hc, hw⟩⟩
  · rintro ⟨hne, hall⟩
    obtain ⟨c, w, rfl⟩ := List.exists_cons_of_ne_nil hne
    obtain ⟨hc, hw⟩ := List.forall_mem_cons.mp hall
    exact ⟨[c], w, rfl, ⟨c, rfl, hc⟩, hw⟩

theorem mem_spans {p : Char → Bool} {s rest : List Char} (h : rest ∈ spans p s) :
    ∃ u, s = u ++ rest ∧ ∀ c ∈ u, p c = true := by
  induction s with
  | nil =>
    rw [List.mem_singleton.mp h]
    exact ⟨[], rfl, fun c hc => absurd hc List.not_mem_nil⟩
  | cons c cs ih =>
    have hnone : ∃ u, c :: cs = u ++ (c :: cs) ∧ ∀ c ∈ u, p c = true :=
      ⟨[], rfl, fun c hc => absurd hc List.not_mem_nil⟩
    rw [spans] at h
    split_ifs at h with hc
    · rcases List.mem_append.mp h with h | h
      · obtain ⟨u, rfl, hu⟩ := ih h
        exact ⟨c :: u, rfl, List.forall_mem_cons.mpr ⟨hc, hu⟩⟩
      · rw [List.mem_singleton.mp h]
        exact hnone
    · rw [List.mem_singleton.mp h]
      exact hnone

theorem mem_iterate {P : List Char → Prop} {step : List Char → List (List Char)} (hnil : P [])
    (hstep : ∀ {s rest : List Char}, rest ∈ step s →
      ∃ u, s = u ++ rest ∧ ∀ v, P v → P (u ++ v)) {n : ℕ} {s rest : List Char}
    (h : rest ∈ iterate step n s) : ∃ u, s = u ++ rest ∧ P u := by
  induction n generalizing s with
  | zero =>
    rw [List.mem_singleton.mp h]
    exact ⟨[], rfl, hnil⟩
  | succ n ih =>
    rcases List.mem_append.mp h with h | h
    · obtain ⟨s', hs', hrest⟩ := List.mem_flatMap.mp h
      obtain ⟨u, rfl, hu⟩ := hstep (List.mem_of_mem_filter hs')
      obtain ⟨v, rfl, hv⟩ := ih hrest
      exact ⟨u ++ v, (List.append_assoc ..).symm, hu v hv⟩
    · rw [List.mem_singleton.mp h]
      exact ⟨[], rfl, hnil⟩

/-- A match takes a begin of the text, and this is one that the expression reads. -/
theorem reads_of_mem_run {r : Regex} {s rest : List Char} {g : List (List Char)}
    (h : (g, rest) ∈ run r s) : ∃ u, s = u ++ rest ∧ Reads r u g := by
  induction r generalizing s rest g with
  | chars cs =>
    obtain ⟨rest', hdrop, heq⟩ := Option.map_eq_some_iff.mp (Option.mem_toList.mp h)
    cases heq
    obtain ⟨cs', rfl, hcs⟩ := List.dropPrefix?_eq_some_iff.mp hdrop
    exact ⟨cs', rfl, eq_of_beq hcs ▸ .chars _⟩
  | char p =>
    cases s with
    | nil => cases h
    | cons c cs =>
      rw [run_char] at h
      split_ifs at h with hc
      · cases List.mem_singleton.mp h
        exact ⟨[c], rfl, .char hc⟩
      · cases h
  | many p =>
    obtain ⟨rest', hmem, heq⟩ := List.mem_map.mp h
    cases heq
    obtain ⟨u, rfl, hu⟩ := mem_spans hmem
    exact ⟨u, rfl, .many hu⟩
  | seq r k ihr ihk =>
    obtain ⟨⟨g₁, s₁⟩, h₁, h⟩ := List.mem_flatMap.mp h
    obtain ⟨⟨g₂, s₂⟩, h₂, heq⟩ := List.mem_map.mp h
    cases heq
    obtain ⟨u, rfl, hu⟩ := ihr h₁
    obtain ⟨v, rfl, hv⟩ := ihk h₂
    exact ⟨u ++ v, (List.append_assoc ..).symm, .seq hu hv⟩
  | alt r k ihr ihk =>
    rcases List.mem_append.mp h with h | h
    · obtain ⟨⟨g₁, s₁⟩, h₁, heq⟩ := List.mem_map.mp h
      cases heq
      obtain ⟨u, rfl, hu⟩ := ihr h₁
      exact ⟨u, rfl, .left hu⟩
    · obtain ⟨⟨g₁, s₁⟩, h₁, heq⟩ := List.mem_map.mp h
      cases heq
      obtain ⟨u, rfl, hu⟩ := ihk h₁
      exact ⟨u, rfl, .right hu⟩
  | star r ih =>
    obtain ⟨rest', hmem, heq⟩ := List.mem_map.mp h
    cases heq
    refine mem_iterate (.done r) (fun hstep => ?_) hmem
    obtain ⟨⟨g₁, s₁⟩, h₁, rfl⟩ := List.mem_map.mp hstep
    obtain ⟨u, rfl, hu⟩ := ih h₁
    exact ⟨u, rfl, fun v hv => .again hu hv⟩
  | group r ih =>
    obtain ⟨⟨g₁, s₁⟩, h₁, heq⟩ := List.mem_map.mp h
    cases heq
    obtain ⟨u, rfl, hu⟩ := ih h₁
    have hlen : (u ++ s₁).length - s₁.length = u.length := by
      rw [List.length_append, Nat.add_sub_cancel]
    refine ⟨u, rfl, ?_⟩
    simp only [hlen, List.take_left]
    exact .group hu
  | eol =>
    rw [run_eol] at h
    split_ifs at h with hs
    · cases List.mem_singleton.mp h
      exact ⟨[], hs, .eol⟩
    · cases h

theorem first_reads {r : Regex} {s rest : List Char} {g : List (List Char)}
    (h : first r s = some (g, rest)) : ∃ u, s = u ++ rest ∧ Reads r u g :=
  reads_of_mem_run (List.mem_of_head? h)

theorem leftmost_reads {r : Regex} {s rest : List Char} {g : List (List Char)}
    (h : leftmost r s = some (g, rest)) : ∃ pre u, s = pre ++ (u ++ rest) ∧ Reads r u g := by
  induction s with
  | nil =>
    obtain ⟨u, hs, hu⟩ := first_reads h
    exact ⟨[], u, hs, hu⟩
  | cons c cs ih =>
    rw [leftmost, Option.or_eq_some_iff] at h
    rcases h with h | ⟨-, h⟩
    · obtain ⟨u, hs, hu⟩ := first_reads h
      exact ⟨[], u, hs, hu⟩
    · obtain ⟨pre, u, rfl, hu⟩ := ih h
      exact ⟨c :: pre, u, rfl, hu⟩

/-! ### The first match -/

section
variable {r k : Regex} {p : Char → Bool} {s s' rest : List Char} {g g' : List (List Char)}

theorem first_chars (cs rest : List Char) : first (.chars cs) (cs ++ rest) = some ([], rest) := by
  rw [first, run_chars, List.dropPrefix?_append_of_beq _ (beq_self_eq_true cs)]
  rfl

theorem first_char {c : Char} (h : p c = true) (cs : List Char) :
    first (.char p) (c :: cs) = some ([], cs) := by
  rw [first, run_char, if_pos h]
  rfl

theorem head_spans {u rest : List Char} (hu : ∀ c ∈ u, p c = true)
    (hrest : ∀ c ∈ rest.head?, p c = false) : (spans p (u ++ rest)).head? = some rest := by
  induction u with
  | nil =>
    cases rest with
    | nil => rfl
    | cons c cs =>
      rw [List.nil_append, spans, if_neg (by rw [hrest c rfl]; decide)]
      rfl
  | cons c u ih =>
    obtain ⟨hc, hu⟩ := List.forall_mem_cons.mp hu
    rw [List.cons_append, spans, if_pos hc, List.head?_append, ih hu]
    rfl

/-- As many characters as there are. -/
theorem first_many {u : List Char} (hu : ∀ c ∈ u, p c = true)
    (hrest : ∀ c ∈ rest.head?, p c = false) : first (.many p) (u ++ rest) = some ([], rest) := by
  rw [first, run_many, List.head?_map, head_spans hu hrest]
  rfl

theorem first_many1 {u : List Char} (hne : u ≠ []) (hu : ∀ c ∈ u, p c = true)
    (hrest : ∀ c ∈ rest.head?, p c = false) : first (many1 p) (u ++ rest) = some ([], rest) := by
  obtain ⟨c, u, rfl⟩ := List.exists_cons_of_ne_nil hne
  obtain ⟨hc, hu⟩ := List.forall_mem_cons.mp hu
  have hmany := first_many hu hrest
  rw [first, run_many, List.head?_map, Option.map_eq_some_iff] at hmany
  obtain ⟨rest', hhead, heq⟩ := hmany
  cases heq
  rw [first, many1, run_seq, List.cons_append, run_char, if_pos hc, List.flatMap_cons,
    List.flatMap_nil, List.append_nil, run_many, List.map_map, List.head?_map, hhead]
  rfl

/-- The first part stays with its first match if the second one matches behind it. -/
theorem first_seq (h : first r s = some (g, s')) (h' : first k s' = some (g', rest)) :
    first (.seq r k) s = some (g ++ g', rest) := by
  obtain ⟨ms, hms⟩ := List.head?_eq_some_iff.mp h
  obtain ⟨ms', hms'⟩ := List.head?_eq_some_iff.mp h'
  rw [first, run_seq, hms, List.flatMap_cons, hms', List.map_cons, List.cons_append, List.head?_cons]

theorem first_left (h : first r s = some (g, rest)) :
    first (.alt r k) s = some (g ++ k.blank, rest) := by
  obtain ⟨ms, hms⟩ := List.head?_eq_some_iff.mp h
  rw [first, run_alt, hms, List.map_cons, List.cons_append, List.head?_cons]

theorem first_right (hr : run r s = []) (h : first k s = some (g, rest)) :
    first (.alt r k) s = some (r.blank ++ g, rest) := by
  obtain ⟨ms, hms⟩ := List.head?_eq_some_iff.mp h
  rw [first, run_alt, hr, List.map_nil, List.nil_append, hms, List.map_cons, List.head?_cons]

theorem first_opt (h : first r s = some (g, rest)) : first (opt r) s = some (g, rest) := by
  rw [opt, first_left h, blank, groups, List.replicate_zero, List.append_nil]

theorem first_opt_skip (hr : run r s = []) : first (opt r) s = some (r.blank, s) := by
  rw [opt, first_right hr (first_chars [] s), List.append_nil]

theorem first_group {u : List Char} (h : first r (u ++ rest) = some (g, rest)) :
    first (.group r) (u ++ rest) = some (u :: g, rest) := by
  have hlen : (u ++ rest).length - rest.length = u.length := by
    rw [List.length_append, Nat.add_sub_cancel]
  rw [first, run_group, List.head?_map, ← first, h, Option.map_some]
  simp only [hlen, List.take_left]

theorem first_eol : first .eol [] = some ([], []) := rfl

/-! ### No match -/

theorem run_seq_of_nil (h : run r s = []) : run (.seq r k) s = [] := by
  rw [run_seq, h, List.flatMap_nil]

theorem first_of_nil (h : run r s = []) : first r s = none := by
  rw [first, h, List.head?_nil]

theorem run_chars_of_not_begin {cs : List Char} (h : ¬ cs <+: s) : run (.chars cs) s = [] := by
  have hdrop : s.dropPrefix? cs = none := by
    rw [Option.eq_none_iff_forall_ne_some]
    intro rest hrest
    obtain ⟨cs', rfl, hcs⟩ := List.dropPrefix?_eq_some_iff.mp hrest
    exact h (eq_of_beq hcs ▸ List.prefix_append cs' rest)
  rw [run_chars, hdrop]
  rfl

/-! ### Part by part -/

/-- The text does not go on with such a character. -/
def stops (p : Char → Bool) (s : List Char) : Bool := s.head?.all fun c => !p c

theorem head_of_stops (h : stops p s = true) : ∀ c ∈ s.head?, p c = false := by
  intro c hc
  have hall := Option.all_eq_true _ _ |>.mp h c hc
  simpa using hall

theorem first_chars_then {cs : List Char} (h : first k s = some (g, rest)) :
    first (.seq (.chars cs) k) (cs ++ s) = some (g, rest) :=
  first_seq (first_chars cs s) h

theorem first_many_then {u : List Char} (hu : ∀ c ∈ u, p c = true) (hs : stops p s = true)
    (h : first k s = some (g, rest)) : first (.seq (.many p) k) (u ++ s) = some (g, rest) :=
  first_seq (first_many hu (head_of_stops hs)) h

theorem first_field {u : List Char} (hu : ∀ c ∈ u, p c = true) (hs : stops p s = true) :
    first (.group (.many p)) (u ++ s) = some ([u], s) :=
  first_group (first_many hu (head_of_stops hs))

theorem first_field_then {u : List Char} (hu : ∀ c ∈ u, p c = true) (hs : stops p s = true)
    (h : first k s = some (g, rest)) :
    first (.seq (.group (.many p)) k) (u ++ s) = some (u :: g, rest) :=
  first_seq (first_field hu hs) h

theorem first_field1 {u : List Char} (hu : u ≠ [] ∧ ∀ c ∈ u, p c = true)
    (hs : stops p s = true) : first (.group (many1 p)) (u ++ s) = some ([u], s) :=
  first_group (first_many1 hu.1 hu.2 (head_of_stops hs))

theorem first_field1_then {u : List Char} (hu : u ≠ [] ∧ ∀ c ∈ u, p c = true)
    (hs : stops p s = true) (h : first k s = some (g, rest)) :
    first (.seq (.group (many1 p)) k) (u ++ s) = some (u :: g, rest) :=
  first_seq (first_field1 hu hs) h

/-- A group of one character. -/
theorem first_single_then {u : List Char} (hu : Lang (.char p) u)
    (h : first k s = some (g, rest)) :
    first (.seq (.group (.char p)) k) (u ++ s) = some (u :: g, rest) := by
  obtain ⟨c, rfl, hc⟩ := lang_char.mp hu
  exact first_seq (first_group (u := [c]) (first_char hc s)) h

theorem first_one_then {c : Char} (hc : p c = true) (hs : stops p s = true)
    (h : first k s = some (g, rest)) : first (.seq (many1 p) k) (c :: s) = some (g, rest) :=
  first_seq (first_many1 (u := [c]) (List.cons_ne_nil c []) (List.forall_mem_singleton.mpr hc)
    (head_of_stops hs)) h

theorem spans_of_stops (hs : stops p s = true) : spans p s = [s] := by
  cases s with
  | nil => rfl
  | cons c cs =>
    rw [spans, if_neg]
    rw [head_of_stops hs c rfl]
    exact Bool.false_ne_true

theorem spans_back {u : List Char} (hu : ∀ c ∈ u, p c = true) {c : Char} (hc : p c = true)
    (hs : stops p s = true) : ∃ more, spans p (u ++ c :: s) = s :: (c :: s) :: more := by
  induction u with
  | nil =>
    refine ⟨[], ?_⟩
    rw [List.nil_append, spans, if_pos hc, spans_of_stops hs]
    rfl
  | cons d u ih =>
    obtain ⟨hd, hu⟩ := List.forall_mem_cons.mp hu
    obtain ⟨more, hmore⟩ := ih hu
    refine ⟨more ++ [d :: (u ++ c :: s)], ?_⟩
    rw [List.cons_append, spans, if_pos hd, hmore]
    rfl

/-- The last character is given back to what comes behind it. -/
theorem first_many1_back {u : List Char} (hu : u ≠ [] ∧ ∀ c ∈ u, p c = true) {c : Char}
    (hc : p c = true) (hs : stops p s = true) (hnone : run k s = [])
    (h : first k (c :: s) = some (g, rest)) :
    first (.seq (many1 p) k) (u ++ c :: s) = some (g, rest) := by
  obtain ⟨d, u, rfl⟩ := List.exists_cons_of_ne_nil hu.1
  obtain ⟨hd, hu⟩ := List.forall_mem_cons.mp hu.2
  obtain ⟨more, hmore⟩ := spans_back hu hc hs
  obtain ⟨ms, hms⟩ := List.head?_eq_some_iff.mp h
  have hrun : run (many1 p) (d :: u ++ c :: s) =
      ([], s) :: ([], c :: s) :: more.map fun rest => ([], rest) := by
    rw [many1, run_seq, List.cons_append, run_char, if_pos hd, List.flatMap_singleton, run_many,
      hmore, List.map_map]
    rfl
  rw [first, run_seq, hrun, List.flatMap_cons, List.flatMap_cons, hnone, hms, List.map_nil,
    List.nil_append, List.map_cons, List.cons_append, List.head?_cons]
  rfl

/-- A repetition of texts that each are matched whole. -/
theorem first_star {P Q : List Char → Prop} (hne : ∀ u, P u → u ≠ [])
    (hQ : ∀ u tail, P u → Q (u ++ tail))
    (hstep : ∀ u tail, P u → Q tail → ∃ g, first r (u ++ tail) = some (g, tail))
    {us : List (List Char)} (hus : ∀ u ∈ us, P u) (hrest : Q rest) (hdone : run r rest = []) :
    first (.star r) (us.flatten ++ rest) = some ([], rest) := by
  have hiterate : ∀ (us : List (List Char)) (n : ℕ), (∀ u ∈ us, P u) → us.length ≤ n →
      (iterate (fun s => (run r s).map (·.2)) n (us.flatten ++ rest)).head? = some rest := by
    intro us
    induction us with
    | nil =>
      intro n _ _
      cases n with
      | zero => rfl
      | succ n =>
        rw [List.flatten_nil, List.nil_append, iterate, hdone]
        rfl
    | cons u us ih =>
      intro n hus hn
      obtain ⟨hu, hus⟩ := List.forall_mem_cons.mp hus
      cases n with
      | zero => cases hn
      | succ n =>
        have htail : Q (us.flatten ++ rest) := by
          cases us with
          | nil => exact hrest
          | cons v us =>
            rw [List.flatten_cons, List.append_assoc]
            exact hQ v _ (hus v (List.mem_cons_self ..))
        obtain ⟨g, hg⟩ := hstep u _ hu htail
        obtain ⟨ms, hms⟩ := List.head?_eq_some_iff.mp hg
        have hless : (us.flatten ++ rest).length < (u ++ (us.flatten ++ rest)).length := by
          have hpos := List.length_pos_iff.mpr (hne u hu)
          simp only [List.length_append]
          omega
        rw [List.flatten_cons, List.append_assoc, iterate, hms, List.map_cons,
          List.filter_cons, if_pos (decide_eq_true hless), List.flatMap_cons, List.append_assoc,
          List.head?_append, ih n hus (Nat.le_of_succ_le_succ hn), Option.some_or]
  have hlen : us.length ≤ (us.flatten ++ rest).length := by
    clear hiterate
    induction us with
    | nil => exact Nat.zero_le _
    | cons u us ih =>
      obtain ⟨hu, hus⟩ := List.forall_mem_cons.mp hus
      have hpos := List.length_pos_iff.mpr (hne u hu)
      have htail := ih hus
      rw [List.length_append] at htail
      rw [List.flatten_cons, List.length_append, List.length_append, List.length_cons]
      omega
  rw [first, run_star, List.head?_map, hiterate us _ hus hlen, Option.map_some]

theorem first_opt_then (h : first r s = some (g, s')) (h' : first k s' = some (g', rest)) :
    first (.seq (opt r) k) s = some (g ++ g', rest) :=
  first_seq (first_opt h) h'

theorem first_none_then (hs : stops p s = true) (h : first k s = some (g, rest)) :
    first (.seq (.many p) k) s = some (g, rest) :=
  first_many_then (u := []) (fun _ hc => absurd hc List.not_mem_nil) hs h

/-- A part that need not be there is left out if nothing matches behind it. -/
theorem first_back_then (hr : ∀ m ∈ run r s, run k m.2 = []) (h : first k s = some (g, rest)) :
    first (.seq (opt r) k) s = some (r.blank ++ g, rest) := by
  have hnone : ((run r s).map fun m => (m.1 ++ blank (.chars []), m.2)).flatMap
      (fun m => (run k m.2).map fun m' => (m.1 ++ m'.1, m'.2)) = [] := by
    rw [List.flatMap_eq_nil_iff]
    intro m' hm'
    obtain ⟨m, hm, rfl⟩ := List.mem_map.mp hm'
    rw [hr m hm, List.map_nil]
  have hskip : run (.chars []) s = [([], s)] := by
    rw [run_chars, List.dropPrefix?_nil]
    rfl
  obtain ⟨ms, hms⟩ := List.head?_eq_some_iff.mp h
  rw [first, opt, run_seq, run_alt, List.flatMap_append, hnone, hskip, List.map_singleton,
    List.flatMap_singleton, hms, List.nil_append, List.append_nil, List.map_cons, List.head?_cons]

theorem first_skip_then (hr : run r s = []) (h : first k s = some (g, rest)) :
    first (.seq (opt r) k) s = some (r.blank ++ g, rest) :=
  first_back_then (fun _ hm => absurd (hr ▸ hm) List.not_mem_nil) h

/-- A text behind its delimiter, if there is a text. -/
def maybe (delimiter : String) : List Char → List Char
  | [] => []
  | c :: cs => delimiter.toList ++ c :: cs

/-- A group behind its delimiter that need not be there. -/
theorem first_maybe_then {delimiter : String} {u : List Char} (hu : ∀ c ∈ u, p c = true)
    (hs : stops p s = true) (hskip : run (.chars delimiter.toList) s = [])
    (h : first k s = some (g, rest)) :
    first (.seq (opt (.seq (lit delimiter) (.group (.many p)))) k) (maybe delimiter u ++ s) =
      some (u :: g, rest) := by
  cases u with
  | nil => exact first_skip_then (run_seq_of_nil hskip) h
  | cons c cs =>
    rw [maybe, List.append_assoc]
    exact first_opt_then (first_chars_then (first_field hu hs)) h

theorem first_maybe1_then {delimiter : String} {u : List Char}
    (hu : u = [] ∨ u ≠ [] ∧ ∀ c ∈ u, p c = true) (hs : stops p s = true)
    (hskip : run (.chars delimiter.toList) s = []) (h : first k s = some (g, rest)) :
    first (.seq (opt (.seq (lit delimiter) (.group (many1 p)))) k) (maybe delimiter u ++ s) =
      some (u :: g, rest) := by
  cases u with
  | nil => exact first_skip_then (run_seq_of_nil hskip) h
  | cons c cs =>
    rw [maybe, List.append_assoc]
    exact first_opt_then
      (first_chars_then (first_field1 (hu.resolve_left (List.cons_ne_nil c cs)) hs)) h

theorem first_maybe {delimiter : String} (hd : delimiter.toList ≠ []) {u : List Char}
    (hu : ∀ c ∈ u, p c = true) :
    first (opt (.seq (lit delimiter) (.group (.many p)))) (maybe delimiter u) = some ([u], []) := by
  cases u with
  | nil =>
    refine first_opt_skip (run_seq_of_nil (run_chars_of_not_begin fun h => hd ?_))
    exact List.prefix_nil.mp h
  | cons c cs =>
    have hfield := first_field (p := p) (s := []) hu rfl
    rw [List.append_nil] at hfield
    exact first_opt (first_chars_then hfield)

end

/-- The leftmost match is at the begin if there is one. -/
theorem leftmost_of_first {r : Regex} {s : List Char} {m : List (List Char) × List Char}
    (h : first r s = some m) : leftmost r s = some m := by
  cases s with
  | nil => exact h
  | cons c cs => rw [leftmost, h, Option.some_or]

/-- Two texts that differ at a place that both have. -/
def differ : List Char → List Char → Bool
  | a :: as, b :: bs => a != b || differ as bs
  | _, _ => false

theorem ne_nil_of_differ {as bs : List Char} (h : differ as bs = true) : bs ≠ [] := by
  rintro rfl
  cases as <;> cases h

theorem not_prefix_of_differ {as bs : List Char} (h : differ as bs = true) (rest : List Char) :
    ¬ as <+: bs ++ rest := by
  induction as generalizing bs with
  | nil => cases h
  | cons a as ih =>
    cases bs with
    | nil => cases h
    | cons b bs =>
      rw [List.cons_append, List.cons_prefix_cons]
      rintro ⟨rfl, hbegin⟩
      rw [differ, bne_self_eq_false, Bool.false_or] at h
      exact ih h hbegin

theorem run_chars_of_differ {as bs : List Char} (h : differ as bs = true) (rest : List Char) :
    run (.chars as) (bs ++ rest) = [] :=
  run_chars_of_not_begin (not_prefix_of_differ h rest)

/-- A text behind another delimiter. -/
theorem run_chars_maybe {cs : List Char} {delimiter : String} {u s : List Char}
    (h : differ cs delimiter.toList = true) (hs : run (.chars cs) s = []) :
    run (.chars cs) (maybe delimiter u ++ s) = [] := by
  cases u with
  | nil => exact hs
  | cons c u =>
    rw [maybe, List.append_assoc]
    exact run_chars_of_differ h _

theorem stops_maybe {p : Char → Bool} {delimiter : String} {u s : List Char}
    (hd : delimiter.toList ≠ []) (h : stops p delimiter.toList = true) (hs : stops p s = true) :
    stops p (maybe delimiter u ++ s) = true := by
  cases u with
  | nil => exact hs
  | cons c u =>
    obtain ⟨d, ds, hds⟩ := List.exists_cons_of_ne_nil hd
    rw [hds] at h
    rw [maybe, hds]
    exact h

/-! ### Fields that need not be there -/

/-- A field behind its delimiter, or neither. -/
def optional (f : String × (Char → Bool)) : Regex := opt (concat [lit f.1, field f.2])

/-- The fields that are there, in a row. -/
def row (fs : List (String × (Char → Bool))) (us : List (List Char)) : List Char :=
  (List.zipWith (fun f u => maybe f.1 u) fs us).flatten

/-- The delimiters tell the fields apart, and end the one in front. -/
def separate : List (String × (Char → Bool)) → Bool
  | [] => true
  | f :: fs => decide (f.1.toList ≠ []) &&
      fs.all (fun k => differ f.1.toList k.1.toList && stops f.2 k.1.toList) && separate fs

theorem row_cases (fs : List (String × (Char → Bool))) (us : List (List Char)) :
    row fs us = [] ∨ ∃ f ∈ fs, ∃ rest, row fs us = f.1.toList ++ rest := by
  induction fs generalizing us with
  | nil => exact Or.inl rfl
  | cons f fs ih =>
    cases us with
    | nil => exact Or.inl rfl
    | cons u us =>
      cases u with
      | nil =>
        refine (ih us).imp_right ?_
        rintro ⟨k, hk, hrest⟩
        exact ⟨k, List.mem_cons_of_mem f hk, hrest⟩
      | cons c cs =>
        refine Or.inr ⟨f, List.mem_cons_self .., c :: cs ++ row fs us, ?_⟩
        rw [row, List.zipWith_cons_cons, List.flatten_cons, maybe, List.append_assoc]
        rfl

theorem stops_row {p : Char → Bool} {fs : List (String × (Char → Bool))}
    (h : (fs.all fun k => decide (k.1.toList ≠ []) && stops p k.1.toList) = true)
    (us : List (List Char)) : stops p (row fs us) = true := by
  rcases row_cases fs us with hnil | ⟨f, hf, rest, hrow⟩
  · rw [hnil]
    rfl
  · obtain ⟨hne, hstop⟩ := (Bool.and_eq_true ..).mp (List.all_eq_true.mp h f hf)
    obtain ⟨c, cs, hcs⟩ := List.exists_cons_of_ne_nil (of_decide_eq_true hne)
    rw [hcs] at hstop
    rw [hrow, hcs]
    exact hstop

theorem run_row {cs : List Char} (hne : cs ≠ []) {fs : List (String × (Char → Bool))}
    (h : (fs.all fun k => differ cs k.1.toList) = true) (us : List (List Char)) :
    run (.chars cs) (row fs us) = [] := by
  rcases row_cases fs us with hnil | ⟨f, hf, rest, hrow⟩
  · rw [hnil]
    exact run_chars_of_not_begin fun hbegin => hne (List.prefix_nil.mp hbegin)
  · rw [hrow]
    exact run_chars_of_differ (List.all_eq_true.mp h f hf) rest

theorem first_row {fs : List (String × (Char → Bool))} (hne : fs ≠ [])
    (h : separate fs = true) {us : List (List Char)}
    (hu : List.Forall₂ (fun f u => ∀ c ∈ u, f.2 c = true) fs us) :
    first (concat (fs.map optional)) (row fs us) = some (us, []) := by
  induction hu with
  | nil => exact absurd rfl hne
  | @cons f u fs us hu hus ih =>
    rw [separate, Bool.and_eq_true, Bool.and_eq_true] at h
    obtain ⟨⟨hd, hall⟩, hseparate⟩ := h
    have hd := of_decide_eq_true hd
    cases hus with
    | nil =>
      have hrow : row [f] [u] = maybe f.1 u := List.append_nil _
      rw [hrow]
      exact first_maybe hd hu
    | @cons f' u' fs us hu' hus =>
      have hdiffer : ((f' :: fs).all fun k => differ f.1.toList k.1.toList) = true :=
        List.all_eq_true.mpr fun k hk => ((Bool.and_eq_true ..).mp (List.all_eq_true.mp hall k hk)).1
      have hstops : ((f' :: fs).all fun k => decide (k.1.toList ≠ []) && stops f.2 k.1.toList) =
          true := by
        refine List.all_eq_true.mpr fun k hk => ?_
        obtain ⟨hk, hstop⟩ := (Bool.and_eq_true ..).mp (List.all_eq_true.mp hall k hk)
        exact (Bool.and_eq_true ..).mpr ⟨decide_eq_true (ne_nil_of_differ hk), hstop⟩
      exact first_maybe_then hu (stops_row hstops (u' :: us)) (run_row hd hdiffer (u' :: us))
        (ih (List.cons_ne_nil f' fs) hseparate)

/-- Where a text ends that has such characters only, and stops them. -/
theorem append_inj_of_stops {p : Char → Bool} {a b s t : List Char} (ha : ∀ c ∈ a, p c = true)
    (hb : ∀ c ∈ b, p c = true) (hs : stops p s = true) (ht : stops p t = true)
    (h : a ++ s = b ++ t) : a = b ∧ s = t := by
  have htake : ∀ {u v : List Char}, (∀ c ∈ u, p c = true) → stops p v = true →
      (u ++ v).takeWhile p = u := by
    intro u v hu hv
    rw [List.takeWhile_append_of_pos hu]
    cases v with
    | nil => exact List.append_nil u
    | cons c v =>
      rw [List.takeWhile_cons_of_neg, List.append_nil]
      rw [head_of_stops hv c rfl]
      exact Bool.false_ne_true
  have heq : a = b := by rw [← htake ha hs, h, htake hb ht]
  subst heq
  exact ⟨rfl, List.append_cancel_left h⟩

/-- How every text that is matched begins. -/
def starts : Regex → List (List Char)
  | chars cs => [cs]
  | seq (chars cs) k => (starts k).map (cs ++ ·)
  | seq r _ => starts r
  | alt r k => starts r ++ starts k
  | group r => starts r
  | _ => [[]]

theorem Reads.starts {r : Regex} {u : List Char} {g : List (List Char)} (h : Reads r u g) :
    ∃ pre ∈ r.starts, pre <+: u := by
  induction h with
  | chars cs => exact ⟨cs, List.mem_singleton_self cs, List.prefix_refl cs⟩
  | @seq r k u v g g' h _ ih ih' =>
    have hfirst : ∃ pre ∈ r.starts, pre <+: u ++ v := by
      obtain ⟨pre, hmem, hpre⟩ := ih
      exact ⟨pre, hmem, hpre.trans (List.prefix_append u v)⟩
    cases r with
    | chars cs =>
      -- what is behind the literal begins with a begin of its own
      cases h
      obtain ⟨pre, hmem, hpre⟩ := ih'
      exact ⟨u ++ pre, List.mem_map_of_mem hmem, (List.prefix_append_right_inj u).mpr hpre⟩
    | _ => exact hfirst
  | left _ ih =>
    obtain ⟨pre, hmem, hpre⟩ := ih
    exact ⟨pre, List.mem_append_left _ hmem, hpre⟩
  | right _ ih =>
    obtain ⟨pre, hmem, hpre⟩ := ih
    exact ⟨pre, List.mem_append_right _ hmem, hpre⟩
  | group _ ih => exact ih
  | _ => exact ⟨[], List.mem_singleton_self [], List.nil_prefix⟩

/-- Nothing is matched behind a text that differs from every begin. -/
theorem run_of_differ {r : Regex} {pre : List Char}
    (h : (r.starts.all fun cs => differ cs pre) = true) (rest : List Char) :
    run r (pre ++ rest) = [] := by
  rw [List.eq_nil_iff_forall_not_mem]
  rintro ⟨g, rest'⟩ hmem
  obtain ⟨u, heq, hu⟩ := reads_of_mem_run hmem
  obtain ⟨cs, hcs, hbegin⟩ := hu.starts
  refine not_prefix_of_differ (List.all_eq_true.mp h cs hcs) rest ?_
  rw [heq]
  exact hbegin.trans (List.prefix_append _ _)

/-- No text begins as the one expression asks for and as the other one does. -/
def apart (r k : Regex) : Bool := k.starts.all fun pre => r.starts.all fun cs => differ cs pre

theorem run_of_apart {r k : Regex} {u : List Char} {g : List (List Char)} (h : apart r k = true)
    (hu : Reads k u g) (rest : List Char) : run r (u ++ rest) = [] := by
  obtain ⟨pre, hmem, v, rfl⟩ := hu.starts
  rw [List.append_assoc]
  exact run_of_differ (List.all_eq_true.mp h pre hmem) (v ++ rest)

/-! ### Alternatives -/

theorem groups_anyOf (texts : List String) : (anyOf texts).groups = 0 := by
  fun_induction anyOf texts with
  | case1 => rfl
  | case2 => rfl
  | case3 text texts _ ih => rw [groups, ih, lit, groups]

theorem lang_anyOf {texts : List String} (hne : texts ≠ []) {u : List Char} :
    Lang (anyOf texts) u ↔ ∃ text ∈ texts, u = text.toList := by
  fun_induction anyOf texts with
  | case1 => exact absurd rfl hne
  | case2 text => simp only [lit, lang_chars, List.mem_singleton, exists_eq_left]
  | case3 text texts htexts ih =>
    rw [lang_alt, lit, lang_chars, ih htexts, List.exists_mem_cons_iff]

/-- No text of the list begins another one. -/
def unlike : List String → Bool
  | [] => true
  | text :: texts => (texts.all fun t => differ text.toList t.toList) && unlike texts

theorem first_anyOf {texts : List String} (h : unlike texts = true) {text : String}
    (ht : text ∈ texts) (rest : List Char) :
    first (anyOf texts) (text.toList ++ rest) = some ([], rest) := by
  fun_induction anyOf texts with
  | case1 => exact absurd ht List.not_mem_nil
  | case2 t =>
    rw [List.mem_singleton.mp ht]
    exact first_chars t.toList rest
  | case3 t texts _ ih =>
    obtain ⟨hall, hunlike⟩ := (Bool.and_eq_true ..).mp h
    rcases List.mem_cons.mp ht with rfl | ht
    · have hblank : (anyOf texts).blank = [] := by rw [blank, groups_anyOf, List.replicate_zero]
      rw [lit, first_left (first_chars text.toList rest), hblank, List.append_nil]
    · have hdiffer := List.all_eq_true.mp hall text ht
      exact first_right (run_chars_of_not_begin (not_prefix_of_differ hdiffer rest)) (ih hunlike ht)

theorem fits_oneOf {texts : List String} {g : List (List Char)} (h : Fits (oneOf texts) g) :
    ∃ u, g = [u] ∧ Lang (anyOf texts) u := by
  have hnil : (anyOf texts).classes = [] := by
    rw [← List.length_eq_zero_iff, length_classes, groups_anyOf]
  rw [Fits, oneOf, classes, hnil] at h
  rcases h with _ | ⟨h, _ | _⟩
  exact ⟨_, rfl, h⟩

/-- One of a few texts. -/
theorem first_oneOf {texts : List String} (hne : texts ≠ []) (h : unlike texts = true)
    {u : List Char} (hu : Lang (anyOf texts) u) (rest : List Char) :
    first (oneOf texts) (u ++ rest) = some ([u], rest) := by
  obtain ⟨text, ht, rfl⟩ := (lang_anyOf hne).mp hu
  exact first_group (first_anyOf h ht rest)

theorem first_oneOf_then {texts : List String} (hne : texts ≠ []) (h : unlike texts = true)
    {k : Regex} {u s rest : List Char} {g : List (List Char)} (hu : Lang (anyOf texts) u)
    (hk : first k s = some (g, rest)) :
    first (.seq (oneOf texts) k) (u ++ s) = some (u :: g, rest) :=
  first_seq (first_oneOf hne h hu s) hk

/-! ### The parts of a match -/

theorem reads_seq {r k : Regex} {u : List Char} {g : List (List Char)} (h : Reads (.seq r k) u g) :
    ∃ v w gv gw, u = v ++ w ∧ g = gv ++ gw ∧ Reads r v gv ∧ Reads k w gw := by
  cases h with
  | seq h h' => exact ⟨_, _, _, _, rfl, rfl, h, h'⟩

theorem reads_chars {cs u : List Char} {g : List (List Char)} (h : Reads (.chars cs) u g) :
    u = cs ∧ g = [] := by
  cases h with
  | chars => exact ⟨rfl, rfl⟩

theorem reads_opt {r : Regex} {u : List Char} {g : List (List Char)} (h : Reads (opt r) u g) :
    Reads r u g ∨ u = [] ∧ g = r.blank := by
  cases h with
  | left h =>
    rw [blank, groups, List.replicate_zero, List.append_nil]
    exact Or.inl h
  | right h =>
    obtain ⟨rfl, rfl⟩ := reads_chars h
    exact Or.inr ⟨rfl, List.append_nil _⟩

/-- Characters, and what is behind them. -/
theorem reads_chars_then {k : Regex} {cs u : List Char} {g : List (List Char)}
    (h : Reads (.seq (.chars cs) k) u g) : ∃ w, u = cs ++ w ∧ Reads k w g := by
  obtain ⟨v, w, gv, gw, rfl, rfl, hv, hw⟩ := reads_seq h
  obtain ⟨rfl, rfl⟩ := reads_chars hv
  exact ⟨w, rfl, hw⟩

/-- A group with no other one in it. -/
theorem reads_group {r : Regex} (hr : r.groups = 0) {u : List Char} {g : List (List Char)}
    (h : Reads (.group r) u g) : g = [u] ∧ Lang r u := by
  cases h with
  | @group _ _ g h =>
    obtain rfl : g = [] := List.length_eq_zero_iff.mp (h.length.trans hr)
    exact ⟨rfl, _, h⟩

theorem reads_group_then {r k : Regex} (hr : r.groups = 0) {u : List Char} {g : List (List Char)}
    (h : Reads (.seq (.group r) k) u g) :
    ∃ v w g', u = v ++ w ∧ g = v :: g' ∧ Lang r v ∧ Reads k w g' := by
  obtain ⟨v, w, gv, gw, rfl, rfl, hv, hw⟩ := reads_seq h
  obtain ⟨rfl, hlang⟩ := reads_group hr hv
  exact ⟨v, w, gw, rfl, rfl, hlang, hw⟩

/-- A group behind its delimiter, or none. -/
theorem reads_maybe {delimiter : String} {r : Regex} (hr : r.groups = 0) {u : List Char}
    {g : List (List Char)} (h : Reads (opt (.seq (lit delimiter) (.group r))) u g) :
    ∃ t, g = [t] ∧ (u = [] ∧ t = [] ∨ u = delimiter.toList ++ t ∧ Lang r t) := by
  rcases reads_opt h with h | ⟨hu, hg⟩
  · obtain ⟨w, rfl, hw⟩ := reads_chars_then h
    obtain ⟨hg, hlang⟩ := reads_group hr hw
    exact ⟨w, hg, Or.inr ⟨rfl, hlang⟩⟩
  · have hgroups : groups (.seq (lit delimiter) (.group r)) = 1 := by
      rw [groups, groups, hr, lit, groups]
    refine ⟨[], ?_, Or.inl ⟨hu, rfl⟩⟩
    rw [hg, blank, hgroups, List.replicate_one]

/-- One of the parts, and where its groups are. -/
theorem Reads.part (rs rs' : List Regex) {k : Regex} {u : List Char} {g : List (List Char)}
    (h : Reads (concat (rs ++ k :: rs')) u g) : ∃ g₁ u₂ g₂ g₃, g = g₁ ++ (g₂ ++ g₃) ∧
      g₁.length = (rs.map groups).foldr (· + ·) 0 ∧ Reads k u₂ g₂ := by
  induction rs generalizing u g with
  | nil =>
    cases rs' with
    | nil => exact ⟨[], u, g, [], (List.append_nil g).symm, rfl, h⟩
    | cons k' rs' =>
      obtain ⟨v, w, gv, gw, -, rfl, hv, -⟩ := reads_seq h
      exact ⟨[], v, gv, gw, rfl, rfl, hv⟩
  | cons r rs ih =>
    have hne : rs ++ k :: rs' ≠ [] := List.append_ne_nil_of_right_ne_nil _ (List.cons_ne_nil k rs')
    obtain ⟨r', rest, hrest⟩ := List.exists_cons_of_ne_nil hne
    rw [List.cons_append, hrest] at h
    obtain ⟨v, w, gv, gw, -, rfl, hv, hw⟩ := reads_seq h
    obtain ⟨g₁, u₂, g₂, g₃, rfl, hlen, hk⟩ := ih (hrest ▸ hw)
    refine ⟨gv ++ g₁, u₂, g₂, g₃, List.append_assoc .. |>.symm, ?_, hk⟩
    rw [List.length_append, hv.length, hlen, List.map_cons, List.foldr_cons]

/-- What is left behind as many characters as there are. -/
theorem stops_dropWhile (p : Char → Bool) (s : List Char) : stops p (s.dropWhile p) = true := by
  induction s with
  | nil => rfl
  | cons c s ih =>
    by_cases hc : p c = true
    · rw [List.dropWhile_cons_of_pos hc]
      exact ih
    · rw [List.dropWhile_cons_of_neg hc]
      simpa only [stops, List.head?_cons, Option.all_some, Bool.not_eq_true'] using
        Bool.eq_false_iff.mpr hc

/-- A group of as many characters as there are matches any text. -/
theorem first_field_any (p : Char → Bool) (s : List Char) :
    first (field p) s = some ([s.takeWhile p], s.dropWhile p) := by
  have h := first_field (p := p) (u := s.takeWhile p) (fun _ hc => List.mem_takeWhile_imp hc)
    (stops_dropWhile p s)
  rwa [List.takeWhile_append_dropWhile] at h

/-- What need not be there stops no match. -/
theorem first_opt_any (r : Regex) (s : List Char) : ∃ m, first (opt r) s = some m := by
  cases h : run r s with
  | nil => exact ⟨_, first_opt_skip h⟩
  | cons m ms => exact ⟨m, first_opt (List.head?_eq_some_iff.mpr ⟨ms, h⟩)⟩

/-- A match anywhere. -/
theorem leftmost_ne_none {r : Regex} {s : List Char} (h : first r s ≠ none) (pre : List Char) :
    leftmost r (pre ++ s) ≠ none := by
  have hsome : ∀ {s : List Char} {m : List (List Char) × List Char}, first r s = some m →
      leftmost r s ≠ none := fun hm => by
    rw [leftmost_of_first hm]
    exact Option.some_ne_none _
  induction pre with
  | nil =>
    obtain ⟨m, hm⟩ := Option.ne_none_iff_exists'.mp h
    exact hsome hm
  | cons c pre ih =>
    rw [List.cons_append, leftmost]
    cases first r (c :: (pre ++ s)) with
    | none => exact ih
    | some m => exact Option.some_ne_none m

/-! ### Nothing is overlooked -/

/-- The end of the text is asked for only where nothing comes behind, if at all. -/
def endsOnly (last : Bool) : Regex → Bool
  | seq r k => endsOnly false r && endsOnly last k
  | alt r k => endsOnly last r && endsOnly last k
  | star r => endsOnly false r
  | group r => endsOnly last r
  | eol => last
  | _ => true

theorem mem_spans_append {p : Char → Bool} {u : List Char} (hu : ∀ c ∈ u, p c = true)
    (rest : List Char) : rest ∈ spans p (u ++ rest) := by
  induction u with
  | nil =>
    cases rest with
    | nil => exact List.mem_singleton_self []
    | cons c rest =>
      rw [List.nil_append, spans]
      split_ifs
      · exact List.mem_append_right _ (List.mem_singleton_self _)
      · exact List.mem_singleton_self _
  | cons c u ih =>
    obtain ⟨hc, hu⟩ := List.forall_mem_cons.mp hu
    rw [List.cons_append, spans, if_pos hc]
    exact List.mem_append_left _ (ih hu)

theorem iterate_succ {step : List Char → List (List Char)} {n : ℕ} {s rest : List Char}
    (h : rest ∈ iterate step n s) : rest ∈ iterate step (n + 1) s := by
  induction n generalizing s with
  | zero => exact List.mem_append_right _ h
  | succ n ih =>
    rcases List.mem_append.mp h with h | h
    · obtain ⟨s', hs', hrest⟩ := List.mem_flatMap.mp h
      exact List.mem_append_left _ (List.mem_flatMap.mpr ⟨s', hs', ih hrest⟩)
    · exact List.mem_append_right _ h

theorem iterate_mono {step : List Char → List (List Char)} {n m : ℕ} (hle : n ≤ m)
    {s rest : List Char} (h : rest ∈ iterate step n s) : rest ∈ iterate step m s := by
  induction hle with
  | refl => exact h
  | step _ ih => exact iterate_succ ih

/-- One more step of a repetition. -/
theorem mem_run_again {r : Regex} {u v rest : List Char} {g : List (List Char)}
    (h : (g, v ++ rest) ∈ run r (u ++ (v ++ rest))) (h' : ([], rest) ∈ run (.star r) (v ++ rest)) :
    ([], rest) ∈ run (.star r) (u ++ (v ++ rest)) := by
  by_cases hu : u = []
  · rw [hu]
    exact h'
  obtain ⟨rest', hmem, heq⟩ := List.mem_map.mp h'
  obtain rfl : rest' = rest := congrArg Prod.snd heq
  obtain ⟨c, u, rfl⟩ := List.exists_cons_of_ne_nil hu
  refine List.mem_map.mpr ⟨rest', List.mem_append_left _ (List.mem_flatMap.mpr ⟨v ++ rest', ?_, ?_⟩),
    rfl⟩
  · refine List.mem_filter.mpr ⟨List.mem_map.mpr ⟨_, h, rfl⟩, decide_eq_true ?_⟩
    simp only [List.cons_append, List.length_cons, List.length_append]
    omega
  · have hle : (v ++ rest').length ≤ (u ++ (v ++ rest')).length :=
      (List.suffix_append u (v ++ rest')).length_le
    exact iterate_mono hle hmem

/-- A text that the expression reads is one of the ways to match, whatever comes behind it. -/
theorem Reads.mem_run {r : Regex} {u : List Char} {g : List (List Char)} (h : Reads r u g)
    {last : Bool} (hends : r.endsOnly last = true) {rest : List Char}
    (hrest : last = true → rest = []) : (g, rest) ∈ run r (u ++ rest) := by
  have hinner : ∀ {rest : List Char}, false = true → rest = [] := fun h => nomatch h
  induction h generalizing last rest with
  | chars cs =>
    rw [run_chars, List.dropPrefix?_append_of_beq _ (beq_self_eq_true cs)]
    exact List.mem_singleton_self _
  | @char p c hc =>
    rw [List.singleton_append, run_char, if_pos hc]
    exact List.mem_singleton_self _
  | many hu => exact List.mem_map.mpr ⟨rest, mem_spans_append hu rest, rfl⟩
  | @seq r k u v g g' _ _ ih ih' =>
    obtain ⟨hr, hk⟩ := (Bool.and_eq_true ..).mp hends
    rw [List.append_assoc]
    exact List.mem_flatMap.mpr ⟨_, ih hr hinner, List.mem_map.mpr ⟨_, ih' hk hrest, rfl⟩⟩
  | left _ ih =>
    obtain ⟨hr, -⟩ := (Bool.and_eq_true ..).mp hends
    exact List.mem_append_left _ (List.mem_map.mpr ⟨_, ih hr hrest, rfl⟩)
  | right _ ih =>
    obtain ⟨-, hk⟩ := (Bool.and_eq_true ..).mp hends
    exact List.mem_append_right _ (List.mem_map.mpr ⟨_, ih hk hrest, rfl⟩)
  | done r =>
    refine List.mem_map.mpr ⟨rest, ?_, rfl⟩
    rw [List.nil_append]
    cases rest.length with
    | zero => exact List.mem_singleton_self rest
    | succ n => exact List.mem_append_right _ (List.mem_singleton_self rest)
  | again _ _ ih ih' =>
    rw [List.append_assoc]
    have hstar : endsOnly false (.star _) = true := hends
    exact mem_run_again (ih hends hinner) (ih' hstar hinner)
  | @group r u g _ ih =>
    refine List.mem_map.mpr ⟨_, ih hends hrest, ?_⟩
    have hlen : (u ++ rest).length - rest.length = u.length := by
      rw [List.length_append, Nat.add_sub_cancel]
    simp only [hlen, List.take_left]
  | eol =>
    rw [hrest hends]
    exact List.mem_singleton_self _

/-- The engine matches every text that the expression reads. -/
theorem first_ne_none {r : Regex} (hends : r.endsOnly true = true) {u : List Char}
    (h : Lang r u) : first r u ≠ none := by
  obtain ⟨g, h⟩ := h
  have hmem : (g, []) ∈ run r (u ++ []) := h.mem_run hends fun _ => rfl
  rw [List.append_nil] at hmem
  rw [first, Ne, List.head?_eq_none_iff]
  exact List.ne_nil_of_mem hmem

/-- Whether a match goes to the end of the text. -/
def endsLine : Regex → Bool
  | seq _ k => endsLine k
  | alt r k => endsLine r && endsLine k
  | group r => endsLine r
  | eol => true
  | _ => false

theorem rest_of_endsLine {r : Regex} (hends : r.endsLine = true) {s rest : List Char}
    {g : List (List Char)} (h : (g, rest) ∈ run r s) : rest = [] := by
  induction r generalizing s rest g with
  | seq r k _ ih =>
    obtain ⟨m, -, h⟩ := List.mem_flatMap.mp h
    obtain ⟨m', hm', heq⟩ := List.mem_map.mp h
    cases heq
    exact ih hends hm'
  | alt r k ihr ihk =>
    obtain ⟨hr, hk⟩ := (Bool.and_eq_true ..).mp hends
    rcases List.mem_append.mp h with h | h
    · obtain ⟨m, hm, heq⟩ := List.mem_map.mp h
      cases heq
      exact ihr hr hm
    · obtain ⟨m, hm, heq⟩ := List.mem_map.mp h
      cases heq
      exact ihk hk hm
  | group r ih =>
    obtain ⟨m, hm, heq⟩ := List.mem_map.mp h
    cases heq
    exact ih hends hm
  | eol =>
    rw [run_eol] at h
    split_ifs at h
    · cases List.mem_singleton.mp h
      rfl
    · cases h
  | _ => cases hends

end Regex
end Lib
