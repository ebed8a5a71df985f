import MediasoupClient.Sdptransform.Gathered

/-! Why reading a line does not fail on what was read before.

        push     names       what the rule finds under its key
        "rtp"    { ... }     nothing, or an array         (push_back throws on anything else)
        ""       { ... }     nothing, or an object        (operator[] throws on anything else)
        ""       { }         whatever there is, which is replaced

    Of two rules with one key each would find what the other one has stored. There are no two such
    rules, and the members of the `m=` line are under no key of a rule. -/

namespace MediasoupClient.Sdptransform
open Lib Lib.Regex Sdp

variable {pf : Platform} {content : List Char} {g : List (List Char)} {rule : Rule} {m m' : Members}

/-- What a rule can go on with. -/
def Shape (rule : Rule) (v : Json) : Prop :=
  if rule.push ≠ "" then ∃ es, v = .arr es
  else rule.names ≠ [] → ∃ members, v = .obj members

/-- A location where every rule can go on. -/
def Shaped (m : Members) : Prop := ∀ rule ∈ outerRules, ∀ v, get rule.key m = some v → Shape rule v

/-! ### A line -/

theorem attachEach_eq (names : List String) (types : List ValueType) (g : List (List Char))
    (m : Members) :
    attachEach pf names types g (.obj m) = (attachNames pf names types g m).map .obj := by
  induction names generalizing types g m with
  | nil => rfl
  | cons name names ih =>
    cases types with
    | nil => rfl
    | cons type types =>
      cases g with
      | nil => rfl
      | cons t g =>
        rw [attachEach, attachNames]
        split_ifs
        · exact ih types g m
        · cases toType pf t type with
          | error e => rfl
          | ok v => exact ih types g (put name v m)

theorem attachProperties_eq {name : String} (h : name = "" ∨ rule.names ≠ []) (m : Members) :
    attachProperties pf g (.obj m) rule.names name rule.types =
      (attachNames pf rule.names rule.types g m).map .obj := by
  rw [attachProperties, if_neg fun hraw => h.elim hraw.1 (absurd hraw.2), attachEach_eq]

/-- A rule that pushes finds an array, which it may have put there itself. -/
theorem parseReg_push (hform : rule.wellFormed = true) (hpush : rule.push ≠ "")
    (hm : ∀ v, get rule.push m = some v → ∃ es, v = .arr es) :
    parseReg pf rule g (.obj m) = (storeReg pf rule g m).map .obj := by
  have hname := (Rule.pushed hform hpush).1
  obtain ⟨m₁, es, hblank, hfound, hes, hput⟩ : ∃ m₁ es, blankLocation rule (.obj m) = .ok (.obj m₁) ∧
      get rule.push m₁ = some (.arr es) ∧ ((get rule.push m).getD .null).elems = es ∧
      ∀ v, put rule.push v m₁ = put rule.push v m := by
    cases hv : get rule.push m with
    | none =>
      refine ⟨put rule.push (.arr []) m, [], ?_, get_put_self .., rfl, fun v => put_put ..⟩
      rw [blankLocation, if_pos ⟨hpush, by rw [Json.find, hv]; rfl⟩]
      rfl
    | some v =>
      obtain ⟨es, rfl⟩ := hm v hv
      refine ⟨m, es, ?_, hv, rfl, fun v => rfl⟩
      rw [blankLocation, if_neg fun h => ?_, if_neg fun h => h.1 hname]
      rw [Json.find, hv] at h
      cases h.2
  rw [parseReg, hblank]
  change ite _ _ _ = _
  rw [if_pos hpush, storeReg, if_pos hpush, attachProperties_eq (Or.inl hname)]
  cases attachNames pf rule.names rule.types g [] with
  | error e => rfl
  | ok object =>
    change (liftM ((Json.obj m₁).readOrNull rule.push) >>= fun list =>
      liftM (list.pushBack (.obj object)) >>= fun pushed =>
      liftM ((Json.obj m₁).write rule.push pushed) : Except Invalid Json) = _
    rw [Json.readOrNull, hfound]
    change Except.ok (Json.obj (put rule.push (.arr (es ++ [.obj object])) m₁)) =
      Except.ok (Json.obj (put rule.push (.arr (((get rule.push m).getD .null).elems ++
        [.obj object])) m))
    rw [hes, hput]

/-- A rule with names finds an object, which it may have put there itself. -/
theorem parseReg_named (hpush : rule.push = "") (hname : rule.name ≠ "") (hnames : rule.names ≠ [])
    (hm : ∀ v, get rule.name m = some v → ∃ members, v = .obj members) :
    parseReg pf rule g (.obj m) = (storeReg pf rule g m).map .obj := by
  obtain ⟨m₁, members, hblank, hfound, hmembers, hput⟩ : ∃ m₁ members,
      blankLocation rule (.obj m) = .ok (.obj m₁) ∧ get rule.name m₁ = some (.obj members) ∧
      storeReg pf rule g m = (attachNames pf rule.names rule.types g members).map
        (fun named => put rule.name (.obj named) m) ∧
      ∀ v, put rule.name v m₁ = put rule.name v m := by
    cases hv : get rule.name m with
    | none =>
      refine ⟨put rule.name (.obj []) m, [], ?_, get_put_self .., ?_, fun v => put_put ..⟩
      · rw [blankLocation, if_neg fun h => h.1 hpush,
          if_pos ⟨hname, hnames, by rw [Json.find, hv]; rfl⟩]
        rfl
      · rw [storeReg, if_neg (not_not.mpr hpush), if_neg hname, if_neg hnames, hv]
        change (attachNames pf rule.names rule.types g [] >>= fun named => _) = _
        cases attachNames pf rule.names rule.types g [] <;> rfl
    | some v =>
      obtain ⟨members, rfl⟩ := hm v hv
      refine ⟨m, members, ?_, hv, ?_, fun v => rfl⟩
      · rw [blankLocation, if_neg fun h => h.1 hpush, if_neg fun h => ?_]
        rw [Json.find, hv] at h
        cases h.2.2
      · rw [storeReg, if_neg (not_not.mpr hpush), if_neg hname, if_neg hnames, hv]
        change (attachNames pf rule.names rule.types g members >>= fun named => _) = _
        cases attachNames pf rule.names rule.types g members <;> rfl
  rw [parseReg, hblank]
  change ite _ _ _ = _
  rw [if_neg (not_not.mpr hpush), if_pos ⟨hname, hnames⟩, Json.readOrNull, hfound]
  change (attachProperties pf g (.obj members) rule.names rule.name rule.types >>= fun named =>
    liftM ((Json.obj m₁).write rule.name named)) = _
  rw [attachProperties_eq (Or.inr hnames), hmembers]
  cases attachNames pf rule.names rule.types g members with
  | error e => rfl
  | ok named => exact congrArg (fun m => Except.ok (Json.obj m)) (hput (.obj named))

/-- Any other rule finds the location, which is an object. -/
theorem parseReg_root (hpush : rule.push = "") (hroot : rule.name = "" ∨ rule.names = []) :
    parseReg pf rule g (.obj m) = (storeReg pf rule g m).map .obj := by
  have hno : ¬(rule.name ≠ "" ∧ rule.names ≠ []) := fun h => hroot.elim h.1 h.2
  have hblank : blankLocation rule (.obj m) = .ok (.obj m) := by
    rw [blankLocation, if_neg fun h => h.1 hpush, if_neg fun h => hno ⟨h.1, h.2.1⟩]
  rw [parseReg, hblank]
  change ite _ _ _ = _
  rw [if_neg (not_not.mpr hpush), if_neg hno, storeReg, if_neg (not_not.mpr hpush)]
  by_cases hname : rule.name = ""
  · rw [if_pos hname]
    exact attachProperties_eq (Or.inl hname) m
  · have hnames := hroot.resolve_left hname
    rw [if_neg hname, if_pos hnames, attachProperties, if_pos ⟨hname, hnames⟩]
    cases toType pf (g.headD []) (rule.types.headD .s) <;> rfl

theorem parseReg_eq (hform : rule.wellFormed = true)
    (hm : ∀ v, get rule.key m = some v → Shape rule v) :
    parseReg pf rule g (.obj m) = (storeReg pf rule g m).map .obj := by
  by_cases hpush : rule.push = ""
  · have hkey : rule.key = rule.name := if_pos hpush
    by_cases hnames : rule.names = []
    · exact parseReg_root hpush (Or.inr hnames)
    · refine parseReg_named hpush (Rule.named hform hpush).1 hnames fun v hv => ?_
      have hshape := hm v (hkey ▸ hv)
      rw [Shape, if_neg (not_not.mpr hpush)] at hshape
      exact hshape hnames
  · have hkey : rule.key = rule.push := if_neg hpush
    refine parseReg_push hform hpush fun v hv => ?_
    have hshape := hm v (hkey ▸ hv)
    rwa [Shape, if_pos hpush] at hshape

/-! ### What a line leaves -/

/-- The member of a rule is one that it can go on with. -/
theorem storeReg_shape (hform : rule.wellFormed = true) (hok : storeReg pf rule g m = .ok m') :
    ∃ v, m' = put rule.key v m ∧ Shape rule v := by
  unfold storeReg at hok
  by_cases hpush : rule.push = ""
  · have hkey : rule.key = rule.name := if_pos hpush
    rw [if_neg (not_not.mpr hpush), if_neg (Rule.named hform hpush).1] at hok
    rw [hkey]
    split_ifs at hok with hnames
    · obtain ⟨v, -, hput⟩ := bind_ok.mp hok
      refine ⟨v, (Except.ok.inj hput).symm, ?_⟩
      rw [Shape, if_neg (not_not.mpr hpush)]
      exact fun hne => absurd hnames hne
    · obtain ⟨named, -, hput⟩ := bind_ok.mp hok
      refine ⟨.obj named, (Except.ok.inj hput).symm, ?_⟩
      rw [Shape, if_neg (not_not.mpr hpush)]
      exact fun _ => ⟨named, rfl⟩
  · have hkey : rule.key = rule.push := if_neg hpush
    rw [if_pos hpush] at hok
    rw [hkey]
    obtain ⟨object, -, hput⟩ := bind_ok.mp hok
    refine ⟨_, (Except.ok.inj hput).symm, ?_⟩
    rw [Shape, if_pos hpush]
    exact ⟨_, rfl⟩

theorem Shaped.storeRules (h : Shaped m) {type : Char} (htype : type ≠ 'm')
    (hok : storeRules pf type content m = .ok m') : Shaped m' := by
  unfold Sdptransform.storeRules at hok
  split at hok
  · rename_i rule g hfind
    have hrule := (search_of_findRule hfind).1
    obtain ⟨v, rfl, hv⟩ := storeReg_shape (rulesMap_wellFormed htype hrule) hok
    intro rule' hrule' w hw
    rw [get_put] at hw
    split_ifs at hw with hkey
    · cases hw
      exact outerRules_key hrule' (mem_outerRules htype hrule) hkey ▸ hv
    · exact h rule' hrule' w hw
  · cases hok
    exact h

/-- A line sets members of its names only. -/
theorem attachNames_other {names : List String} {types : List ValueType} {k : String}
    (hk : k ∉ names) (hok : attachNames pf names types g m = .ok m') : get k m' = get k m := by
  induction names generalizing types g m with
  | nil => cases hok; rfl
  | cons name names ih =>
    obtain ⟨hne, hk⟩ := not_or.mp fun h => hk (List.mem_cons.mpr h)
    cases types with
    | nil => cases hok; rfl
    | cons type types =>
      cases g with
      | nil => cases hok; rfl
      | cons t g =>
        rw [attachNames] at hok
        split_ifs at hok
        · exact ih hk hok
        · obtain ⟨v, -, hrest⟩ := bind_ok.mp hok
          rw [ih hk hrest, get_put_of_ne v hne]

/-- The line of a section sets no member of a rule. -/
theorem shaped_media (hok : storeRules pf 'm' content blankMedia = .ok m) : Shaped m := by
  have hblank : Shaped blankMedia := by
    intro rule hrule v hv
    rw [get_blankMedia] at hv
    split_ifs at hv with hkey
    cases hv
    rw [Shape, if_pos ((outerRules_known hrule).2.resolve_right (not_not.mpr hkey))]
    exact ⟨[], rfl⟩
  unfold Sdptransform.storeRules at hok
  split at hok
  · rename_i rule g hfind
    obtain rfl := List.mem_singleton.mp (search_of_findRule hfind).1
    have hread : attachNames pf mediaRule.names mediaRule.types g blankMedia = .ok m := hok
    intro rule hrule v hv
    rw [attachNames_other (outerRules_known hrule).1 hread] at hv
    exact hblank rule hrule v hv
  · cases hok
    exact hblank

/-! ### The text -/

/-- The members as the parser has them. -/
def reading (st : Parsing) : Reading := ⟨.obj st.session, st.media.map .obj⟩

/-- Every location is one where the rules can go on. -/
structure ShapedParsing (st : Parsing) : Prop where
  session : Shaped st.session
  media : ∀ m ∈ st.media, Shaped m

theorem applyRules_eq {type : Char} (htype : type ≠ 'm') (h : Shaped m) (content : List Char) :
    applyRules pf type content (.obj m) = (storeRules pf type content m).map .obj := by
  unfold applyRules storeRules
  cases hfind : findRule content (rulesMap type) with
  | none => rfl
  | some found =>
    have hrule := (search_of_findRule hfind).1
    exact parseReg_eq (rulesMap_wellFormed htype hrule) (h _ (mem_outerRules htype hrule))

theorem applyRules_media (content : List Char) :
    applyRules pf 'm' content (.obj blankMedia) =
      (storeRules pf 'm' content blankMedia).map .obj := by
  unfold applyRules storeRules
  cases hfind : findRule content (rulesMap 'm') with
  | none => rfl
  | some found =>
    have hrule : found.1 = mediaRule := List.mem_singleton.mp (search_of_findRule hfind).1
    exact parseReg_root (by rw [hrule]; rfl) (Or.inl (by rw [hrule]; rfl))

theorem parseLine_eq (st : Parsing) (line : List Char) (h : ShapedParsing st) :
    parseLine pf (reading st) line = (storeLine pf st line).map reading := by
  unfold parseLine storeLine
  cases hvalid : validLine line with
  | none => rfl
  | some tc =>
    obtain ⟨type, content⟩ := tc
    by_cases hm : type = 'm'
    · subst hm
      simp only [if_true, applyRules_media]
      cases storeRules pf 'm' content blankMedia <;> rfl
    · simp only [if_neg hm]
      obtain ⟨session, media⟩ := st
      cases media with
      | nil =>
        simp only [reading, List.map_nil, applyRules_eq hm h.session]
        cases storeRules pf type content session <;> rfl
      | cons m rest =>
        simp only [reading, List.map_cons, applyRules_eq hm (h.media m (List.mem_cons_self ..))]
        cases storeRules pf type content m <;> rfl

theorem ShapedParsing.storeLine {st st' : Parsing} {line : List Char} (h : ShapedParsing st)
    (hok : storeLine pf st line = .ok st') : ShapedParsing st' := by
  unfold Sdptransform.storeLine at hok
  cases hvalid : validLine line with
  | none =>
    rw [hvalid] at hok
    cases hok
    exact h
  | some tc =>
    obtain ⟨type, content⟩ := tc
    rw [hvalid] at hok
    simp only at hok
    split_ifs at hok with hm
    · subst hm
      obtain ⟨m, hread, hput⟩ := bind_ok.mp hok
      cases hput
      exact ⟨h.session, List.forall_mem_cons.mpr ⟨shaped_media hread, h.media⟩⟩
    · obtain ⟨session, media⟩ := st
      cases media with
      | nil =>
        obtain ⟨session', hread, hput⟩ := bind_ok.mp hok
        cases hput
        exact ⟨h.session.storeRules hm hread, h.media⟩
      | cons m rest =>
        obtain ⟨m', hread, hput⟩ := bind_ok.mp hok
        cases hput
        obtain ⟨hfirst, hrest⟩ := List.forall_mem_cons.mp h.media
        exact ⟨h.session, List.forall_mem_cons.mpr ⟨hfirst.storeRules hm hread, hrest⟩⟩

/-- No line of any text meets a member of another shape: the code reads what `store` reads, and
    throws no exception of the library. -/
theorem parse_eq (sdp : String) : parse pf sdp = store pf sdp := by
  have hblank : ShapedParsing ⟨[], []⟩ :=
    ⟨fun _ _ _ hv => (nomatch hv), fun _ hm => absurd hm List.not_mem_nil⟩
  have hfold := foldlM_form (f := fun st line => parseLine pf st (withoutCr line))
    (g := fun st line => storeLine pf st (withoutCr line)) (w := reading) (I := ShapedParsing)
    (fun st line => parseLine_eq st (withoutCr line))
    (fun hok h => h.storeLine hok) (split sdp '\n') hblank
  unfold parse store
  have hstart : (⟨.obj [], []⟩ : Reading) = reading ⟨[], []⟩ := rfl
  rw [hstart, hfold]
  cases (split sdp '\n').foldlM (fun st line => storeLine pf st (withoutCr line)) ⟨[], []⟩ with
  | error e => rfl
  | ok st =>
    change Except.ok (Json.obj (put "media" (.arr (st.media.map .obj).reverse) st.session)) = _
    rw [← List.map_reverse]
    rfl

end MediasoupClient.Sdptransform
