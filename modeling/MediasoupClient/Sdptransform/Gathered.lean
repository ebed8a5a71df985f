import MediasoupClient.Sdptransform.ReadLines

/-! What a text has left in a session.

        a=rtpmap:111 opus/48000     rtp: [ ..., { payload: 111, ... } ]     one more, behind the others
        a=mid:0                     mid: "0"                                in place of the last one
        a=rtcp:9                    rtcp: { port: 9, ... }                  into the object

    Line by line, every member under the key of a rule stays one that the rule has read (`Gathered`),
    and so can be printed. -/

namespace MediasoupClient.Sdptransform
open Lib Lib.Regex Sdp

section
variable (pf : Platform) (dump : Json → String)

/-- A value that a rule has read. -/
structure Stored (rule : Rule) (v : Json) : Prop where
  taken : ∃ g, Taken pf dump rule v g
  members : rule.names ≠ [] → ∃ m, v = .obj m ∧ Sorted m ∧ ∀ k ∉ rule.names, get k m = none

/-- A member that it has read: a value, or an array with a value of each line. -/
def ReadMember (rule : Rule) (v : Json) : Prop :=
  if rule.push = "" then Stored pf dump rule v
  else ∃ es, v = .arr es ∧ ∀ e ∈ es, Stored pf dump rule e

/-- A location after some lines, and how it was before them. -/
structure Gathered (blank m : Members) : Prop where
  sorted : Sorted m
  stored : ∀ rule ∈ outerRules, ValueType.f ∉ rule.types → ∀ v, get rule.key m = some v →
    ReadMember pf dump rule v
  filled : ∀ rule ∈ outerRules, rule.push ≠ "" → get rule.key m = some (.arr []) →
    get rule.key blank = some (.arr [])
  known : ∀ k, k ∉ outerRules.map Rule.key → get k m = get k blank
  kept : ∀ k, (get k blank).isSome = true → (get k m).isSome = true

/-- A section behind its `m=`. -/
structure Opened (m : Members) : Prop where
  sorted : Sorted m
  line : ∃ g, Taken pf dump mediaRule (.obj m) g
  other : ∀ k ∉ mediaRule.names, get k m = get k blankMedia

/-- A session in the middle of its text. -/
structure Collected (st : Parsing) : Prop where
  session : Gathered pf dump [] st.session
  media : ∀ m ∈ st.media, ∃ base, Opened pf dump base ∧ Gathered pf dump base m

end

variable {pf : Platform} {dump : Json → String} {content : List Char} {g : List (List Char)}
  {blank m : Members}

/-! ### One member -/

/-- Every line but `m=` has a rule of the session's. -/
theorem mem_outerRules {type : Char} (htype : type ≠ 'm') {rule : Rule}
    (hrule : rule ∈ rulesMap type) : rule ∈ outerRules := by
  have hmem : type ∈ outerOrder := by
    unfold rulesMap at hrule
    split at hrule <;> first
      | decide
      | exact absurd rfl htype
      | exact absurd hrule List.not_mem_nil
  exact List.mem_map.mpr ⟨(type, rule), List.mem_flatMap.mpr ⟨type, hmem,
    List.mem_map_of_mem hrule⟩, rfl⟩

theorem outerRules_key {rule rule' : Rule} (h : rule ∈ outerRules) (h' : rule' ∈ outerRules)
    (hkey : rule.key = rule'.key) : rule = rule' := by
  have hnodup : (outerRules.map Rule.key).Nodup := by
    rw [outerRules, List.map_map]
    exact outerKeys_nodup
  exact List.inj_on_of_nodup_map hnodup h h' hkey

/-- A member of the rule is put in place of the one it had. -/
theorem Gathered.put (h : Gathered pf dump blank m) {rule : Rule} (hrule : rule ∈ outerRules)
    {v : Json} (hv : ValueType.f ∉ rule.types → ReadMember pf dump rule v)
    (hne : rule.push ≠ "" → v ≠ .arr []) : Gathered pf dump blank (put rule.key v m) where
  sorted := sorted_put _ _ h.sorted
  stored := by
    intro rule' hrule' hf w hw
    rw [get_put] at hw
    split_ifs at hw with hkey
    · obtain rfl := outerRules_key hrule' hrule hkey
      cases hw
      exact hv hf
    · exact h.stored rule' hrule' hf w hw
  filled := by
    intro rule' hrule' hpush hw
    rw [get_put] at hw
    split_ifs at hw with hkey
    · obtain rfl := outerRules_key hrule' hrule hkey
      exact absurd (Option.some.inj hw) (hne hpush)
    · exact h.filled rule' hrule' hpush hw
  known := by
    intro k hk
    have hne : k ≠ rule.key := fun heq => hk (heq ▸ List.mem_map_of_mem hrule)
    rw [get_put_of_ne v hne, h.known k hk]
  kept := by
    intro k hk
    rw [get_put]
    split_ifs
    · rfl
    · exact h.kept k hk

/-! ### One line -/

theorem simulcast_of_name {type : Char} {rule : Rule} (hrule : rule ∈ rulesMap type)
    (hname : rule.name = "simulcast") : rule = simulcastRule := by
  have hasked : asked rule = true := by
    rw [asked, hname, decide_eq_true rfl, Bool.or_true]
  rw [attributes_of_asked hrule (by rw [hasked, Bool.true_or])] at hrule
  exact eq_of_filter (p := fun r => r.name = "simulcast") rfl hrule (decide_eq_true hname)

theorem holds_blank (fields : List (String × ValueType)) {location : Members}
    (h : ∀ nt ∈ fields, get nt.1 location = none) :
    List.Forall₂ (fun nt t => Holds pf dump nt.2 ((Json.obj location).find nt.1) t) fields
      (List.replicate fields.length []) := by
  induction fields with
  | nil => exact .nil
  | cons field fields ih =>
    obtain ⟨hnone, hfields⟩ := List.forall_mem_cons.mp h
    have hfind : (Json.obj location).find field.1 = none := hnone
    refine .cons ?_ (ih hfields)
    rw [hfind]
    rfl

/-- Nothing was there before. -/
theorem base_blank {type : Char} {rule : Rule} (hrule : rule ∈ rulesMap type)
    (hf : ValueType.f ∉ rule.types) (hnames : rule.names ≠ []) {location : Members}
    (h : ∀ name ∈ rule.names, get name location = none) :
    Base pf dump rule location (List.replicate rule.names.length []) := by
  obtain ⟨-, hlen⟩ := rulesMap_namesTyped hrule
  have hstable : rule.Stable pf dump := rulesMap_stable hrule hf
  have hfields : (rule.names.zip rule.types).length = rule.names.length := by
    rw [List.length_zip, min_eq_left hlen]
  have hclasses : rule.reg.body.classes.length = rule.names.length := by
    rw [← hstable.length_eq, Rule.fields, if_neg hnames, List.length_map, hfields]
  refine ⟨?_, ?_, ?_, fun _ => rfl, fun hname => ?_⟩
  · have hholds : List.Forall₂ (fun nt t => Holds pf dump nt.2 ((Json.obj location).find nt.1) t)
        (rule.names.zip rule.types) (List.replicate (rule.names.zip rule.types).length []) :=
      holds_blank _ fun nt hnt => h nt.1 (List.of_mem_zip hnt).1
    rwa [hfields] at hholds
  · rw [← hclasses]
    induction rule.reg.body.classes with
    | nil => exact .nil
    | cons P Ps ih => exact .cons (Or.inl rfl) ih
  · intro t ht
    rw [List.eq_of_mem_replicate ht]
    exact kept_digits rule fun c hc => absurd hc List.not_mem_nil
  · obtain rfl := simulcast_of_name hrule hname
    have hnone : ∀ name ∈ simulcastRule.names, hasValue (.obj location) name = false := by
      intro name hmem
      have hfind : (Json.obj location).find name = none := h name hmem
      rw [hasValue, hfind]
    rw [hnone "dir2" (by decide), hnone "list2" (by decide)]

/-- An object that has been read before. -/
theorem base_stored {rule : Rule} (hpush : rule.push = "") (hnames : rule.names ≠ [])
    {location : Members} (h : Stored pf dump rule (.obj location)) :
    ∃ g₀, Base pf dump rule location g₀ := by
  obtain ⟨g₀, htaken⟩ := h.taken
  refine ⟨g₀, htaken.named hnames, ?_, fun t ht => ⟨htaken.oneLine t ht, fun hbehind =>
    htaken.told.unflagged hbehind t ht⟩, fun hne => absurd hpush hne, htaken.told.streams⟩
  exact htaken.fits.imp fun _ _ hP => Or.inr hP

/-- A line into an object: what has been read, or none. -/
theorem object_stored {type : Char} {rule : Rule}
    (h : findRule content (rulesMap type) = some (rule, g)) (hplain : ∀ c ∈ content, dot c = true)
    (hf : ValueType.f ∉ rule.types) (hnames : rule.names ≠ []) {location : Members}
    (hlocation : location = [] ∨ rule.push = "" ∧ Stored pf dump rule (.obj location)) :
    ∃ m, attachNames pf rule.names rule.types g location = .ok m ∧ Stored pf dump rule (.obj m) := by
  have hrule := (search_of_findRule h).1
  have hbase : ∃ g₀, Base pf dump rule location g₀ := by
    rcases hlocation with rfl | ⟨hpush, hstored⟩
    · exact ⟨_, base_blank hrule hf hnames fun _ _ => rfl⟩
    · exact base_stored hpush hnames hstored
  have hempty : Sorted location ∧ ∀ k ∉ rule.names, get k location = none := by
    rcases hlocation with rfl | ⟨-, hstored⟩
    · exact ⟨List.Pairwise.nil, fun _ _ => rfl⟩
    · obtain ⟨m, heq, hsorted, hm⟩ := hstored.members hnames
      cases heq
      exact ⟨hsorted, hm⟩
  obtain ⟨g₀, hbase⟩ := hbase
  obtain ⟨m, hok, hsorted, htaken, hother⟩ := attach_taken h hplain hf hnames hempty.1 hbase
  exact ⟨m, hok, ⟨_, htaken⟩, fun _ => ⟨m, rfl, hsorted, fun k hk =>
    (hother k hk).trans (hempty.2 k hk)⟩⟩

/-- A line puts one member, that its rule has read. -/
theorem storeReg_put {type : Char} (htype : type ≠ 'm') {rule : Rule}
    (h : findRule content (rulesMap type) = some (rule, g)) (hplain : ∀ c ∈ content, dot c = true)
    {m m' : Members} (hm : ValueType.f ∉ rule.types → ∀ v, get rule.key m = some v →
      ReadMember pf dump rule v) (hok : storeReg pf rule g m = .ok m') :
    ∃ v, m' = put rule.key v m ∧ (ValueType.f ∉ rule.types → ReadMember pf dump rule v) ∧
      (rule.push ≠ "" → v ≠ .arr []) := by
  have hrule := (search_of_findRule h).1
  have hform := rulesMap_wellFormed htype hrule
  unfold storeReg at hok
  by_cases hpush : rule.push = ""
  · have hkey : rule.key = rule.name := if_pos hpush
    obtain ⟨hname, -⟩ := Rule.named hform hpush
    rw [hkey] at hm ⊢
    rw [if_neg (not_not.mpr hpush), if_neg hname] at hok
    split_ifs at hok with hnames
    · obtain ⟨v, hread, hput⟩ := bind_ok.mp hok
      refine ⟨v, (Except.ok.inj hput).symm, fun hf => ?_, fun hne => absurd hpush hne⟩
      have hvalue : ∃ v, toType pf (g.headD []) (rule.types.headD .s) = .ok v ∧
          ∃ g', Taken pf dump rule v g' := value_taken h hplain hf hnames
      obtain ⟨v', hread', htaken⟩ := hvalue
      cases hread.symm.trans hread'
      rw [ReadMember, if_pos hpush]
      exact ⟨htaken, fun hne => absurd hnames hne⟩
    · obtain ⟨object, hread, hput⟩ := bind_ok.mp hok
      refine ⟨.obj object, (Except.ok.inj hput).symm, fun hf => ?_, fun hne => absurd hpush hne⟩
      have hwritten : ∀ named, (named = [] ∨ rule.push = "" ∧ Stored pf dump rule (.obj named)) →
          attachNames pf rule.names rule.types g named = .ok object →
            ReadMember pf dump rule (.obj object) := by
        intro named hlocation hread
        obtain ⟨object', hread', hstored⟩ := object_stored h hplain hf hnames hlocation
        cases hread.symm.trans hread'
        rw [ReadMember, if_pos hpush]
        exact hstored
      split at hread
      · rename_i members hmembers
        have hstored := hm hf _ hmembers
        rw [ReadMember, if_pos hpush] at hstored
        exact hwritten members (Or.inr ⟨hpush, hstored⟩) hread
      · exact hwritten [] (Or.inl rfl) hread
  · have hkey : rule.key = rule.push := if_neg hpush
    obtain ⟨-, hnames, -⟩ := Rule.pushed hform hpush
    rw [hkey] at hm ⊢
    rw [if_pos hpush] at hok
    obtain ⟨object, hread, hput⟩ := bind_ok.mp hok
    refine ⟨_, (Except.ok.inj hput).symm, fun hf => ?_, fun _ heq => ?_⟩
    · obtain ⟨object', hread', hstored⟩ := object_stored h hplain hf hnames (Or.inl rfl)
      cases hread.symm.trans hread'
      rw [ReadMember, if_neg hpush]
      refine ⟨_, rfl, List.forall_mem_append.mpr ⟨?_, List.forall_mem_singleton.mpr hstored⟩⟩
      cases hv : get rule.push m with
      | none => exact fun e he => absurd he List.not_mem_nil
      | some v =>
        have hmember := hm hf v hv
        rw [ReadMember, if_neg hpush] at hmember
        obtain ⟨es, rfl, hes⟩ := hmember
        exact hes
    · exact List.append_ne_nil_of_right_ne_nil _ (List.cons_ne_nil _ _) (Json.arr.inj heq)

/-- What a line adds is gathered. -/
theorem Gathered.storeRules {type : Char} (htype : type ≠ 'm') (h : Gathered pf dump blank m)
    (hplain : ∀ c ∈ content, dot c = true) {m' : Members}
    (hok : storeRules pf type content m = .ok m') : Gathered pf dump blank m' := by
  unfold Sdptransform.storeRules at hok
  split at hok
  · rename_i rule g hfind
    have hrule := mem_outerRules htype (search_of_findRule hfind).1
    obtain ⟨v, rfl, hv, hne⟩ := storeReg_put htype hfind hplain (h.stored rule hrule) hok
    exact h.put hrule hv hne
  · cases hok
    exact h

/-! ### A section -/

theorem blankMedia_names : ∀ name ∈ mediaRule.names, get name blankMedia = none := by decide

/-- The line of a section is taken, also if it is none. -/
theorem opened_media (hplain : ∀ c ∈ content, dot c = true) {base : Members}
    (hok : storeRules pf 'm' content blankMedia = .ok base) : Opened pf dump base := by
  have hrule : mediaRule ∈ rulesMap 'm' := List.mem_singleton_self mediaRule
  have hbase : Base pf dump mediaRule blankMedia _ :=
    base_blank hrule (by decide) (by decide) blankMedia_names
  unfold storeRules at hok
  split at hok
  · rename_i rule g hfind
    obtain rfl : rule = mediaRule := List.mem_singleton.mp (search_of_findRule hfind).1
    obtain ⟨m, hread, hsorted, htaken, hother⟩ :=
      attach_taken hfind hplain (by decide) (by decide) sorted_blankMedia hbase
    cases hread.symm.trans hok
    exact ⟨hsorted, ⟨_, htaken⟩, hother⟩
  · cases hok
    refine ⟨sorted_blankMedia, ⟨_, ⟨fun hnil => absurd hnil (by decide), fun _ => hbase.shows, ?_,
      fun t ht => (hbase.kept t ht).1, told_unasked rfl hbase.kept⟩⟩, fun _ _ => rfl⟩
    have hblank : ∀ p : Char → Bool, Lang (.many p) [] := fun p =>
      lang_many.mpr fun c hc => absurd hc List.not_mem_nil
    exact .cons (hblank _) (.cons (hblank _) (.cons (Or.inl rfl) (.cons (hblank _)
      (.cons (Or.inl rfl) .nil))))

theorem outerKeys_known : (outerRules.all fun rule => rule.key ∉ mediaRule.names &&
    (rule.push ≠ "" || rule.key ∉ ["rtp", "fmtp"])) = true := by decide

theorem outerRules_known {rule : Rule} (hrule : rule ∈ outerRules) :
    rule.key ∉ mediaRule.names ∧ (rule.push ≠ "" ∨ rule.key ∉ ["rtp", "fmtp"]) := by
  have hall := List.all_eq_true.mp outerKeys_known rule hrule
  simpa only [Bool.and_eq_true, Bool.or_eq_true, decide_eq_true_eq] using hall

/-- It has nothing but empty arrays yet. -/
theorem Opened.gathered {base : Members} (h : Opened pf dump base) :
    Gathered pf dump base base where
  sorted := h.sorted
  stored := by
    intro rule hrule _ v hv
    obtain ⟨hnames, harrays⟩ := outerRules_known hrule
    rw [h.other _ hnames, get_blankMedia] at hv
    split_ifs at hv with hkey
    cases hv
    rw [ReadMember, if_neg (harrays.resolve_right (not_not.mpr hkey))]
    exact ⟨[], rfl, fun e he => absurd he List.not_mem_nil⟩
  filled _ _ _ hv := hv
  known _ _ := rfl
  kept _ hk := hk

/-! ### The text -/

theorem Collected.storeLine {st st' : Parsing} {line : List Char} (h : Collected pf dump st)
    (hplain : ∀ c ∈ line, dot c = true) (hok : storeLine pf st line = .ok st') :
    Collected pf dump st' := by
  unfold Sdptransform.storeLine at hok
  cases hvalid : validLine line with
  | none =>
    rw [hvalid] at hok
    cases hok
    exact h
  | some tc =>
    obtain ⟨type, content⟩ := tc
    have hcontent : ∀ c ∈ content, dot c = true := by
      unfold validLine at hvalid
      split at hvalid
      · split_ifs at hvalid
        cases hvalid
        exact fun c hc => hplain c (List.mem_cons_of_mem _ (List.mem_cons_of_mem _ hc))
      · cases hvalid
    rw [hvalid] at hok
    simp only at hok
    split_ifs at hok with htype
    · subst htype
      obtain ⟨base, hread, hput⟩ := bind_ok.mp hok
      cases hput
      have hopened : Opened pf dump base := opened_media hcontent hread
      exact ⟨h.session, List.forall_mem_cons.mpr ⟨⟨base, hopened, hopened.gathered⟩, h.media⟩⟩
    · cases hmedia : st.media with
      | nil =>
        rw [hmedia] at hok
        obtain ⟨session, hread, hput⟩ := bind_ok.mp hok
        cases hput
        exact ⟨h.session.storeRules htype hcontent hread, fun m hm => absurd hm List.not_mem_nil⟩
      | cons m rest =>
        rw [hmedia] at hok
        obtain ⟨m', hread, hput⟩ := bind_ok.mp hok
        cases hput
        have hsections := h.media
        rw [hmedia] at hsections
        obtain ⟨⟨base, hopened, hm⟩, hrest⟩ := List.forall_mem_cons.mp hsections
        exact ⟨h.session, List.forall_mem_cons.mpr
          ⟨⟨base, hopened, hm.storeRules htype hcontent hread⟩, hrest⟩⟩

/-- No line has a carriage return but at its end. -/
def plainText (sdp : String) : Bool :=
  (split sdp '\n').all fun line => '\r' ∉ withoutCr line

theorem dot_of_plainText {sdp : String} (h : plainText sdp = true) :
    ∀ line ∈ split sdp '\n', ∀ c ∈ withoutCr line, dot c = true := by
  intro line hline c hc
  have hcr : '\r' ∉ withoutCr line := of_decide_eq_true (List.all_eq_true.mp h line hline)
  have hbreak : '\n' ∉ line.toList := not_mem_split line hline
  have hmem : c ∈ line.toList := by
    unfold withoutCr at hc
    split_ifs at hc
    · exact List.dropLast_subset _ hc
    · exact hc
  have hne : c ≠ '\n' ∧ c ≠ '\r' := ⟨fun h => hbreak (h ▸ hmem), fun h => hcr (h ▸ hc)⟩
  simpa only [dot, Bool.and_eq_true, decide_eq_true_eq] using hne

/-- A text leaves sections and members that have been read. -/
theorem store_collected {sdp : String} (hplain : plainText sdp = true) {v : Json}
    (hok : store pf sdp = .ok v) : ∃ st, Collected pf dump st ∧
      v = .obj (put "media" (.arr (st.media.reverse.map .obj)) st.session) := by
  obtain ⟨st, hfold, hput⟩ := bind_ok.mp hok
  have hblank : Collected pf dump ⟨[], []⟩ :=
    ⟨⟨List.Pairwise.nil, fun _ _ _ _ hv => absurd hv (Option.some_ne_none _).symm,
      fun _ _ _ hv => hv, fun _ _ => rfl, fun _ hk => hk⟩, fun m hm => absurd hm List.not_mem_nil⟩
  refine ⟨st, foldlM_keeps_of_mem (fun line hline => ?_) hfold hblank, (Except.ok.inj hput).symm⟩
  exact fun hread h => h.storeLine (dot_of_plainText hplain line hline) hread

end MediasoupClient.Sdptransform
