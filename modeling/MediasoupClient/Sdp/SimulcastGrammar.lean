import MediasoupClient.Sdp.SdpTransform

/-! The grammar of simulcast (json/grammar.cpp, json/parser.cpp).

        a=rid:a send                 ──▶   rids: [ { id: "a", direction: "send" } ]
        a=simulcast:send a recv b    ──▶   simulcast: { dir1: "send", list1: "a",
                                                        dir2: "recv", list2: "b" }

    A simulcast line has a list behind each of one or two directions. It is no array: a second line
    writes over the members of the first one, and leaves those that it does not say itself. -/

namespace MediasoupClient.Sdp
open Lib

/-! ### The rules for simulcast -/

/-- `^mid:([^\s]*)` -/
def midReg (content : List Char) : Option (List String) := do
  let rest ← literal "mid:" content
  return [(token (fun c => !isSpace c) rest).1]

/-- `^(extmap-allow-mixed)` -/
def extmapAllowMixedReg (content : List Char) : Option (List String) := do
  let _ ← literal "extmap-allow-mixed" content
  return ["extmap-allow-mixed"]

/-- `^rid:([\d\w]+) (\w+)(?: (.*))?` -/
def ridReg (content : List Char) : Option (List String) := do
  let rest ← literal "rid:" content
  let id := token isWord rest
  let rest ← literal " " id.2
  let direction := token isWord rest
  if id.1 = "" ∨ direction.1 = "" then none
  else return [id.1, direction.1, spaced (fun c => c ≠ '\n' ∧ c ≠ '\r') direction.2]

/-- `[a-zA-Z0-9\-_~;,]` -/
def isListChar (c : Char) : Bool := c.isAlphanum || c ∈ ['-', '_', '~', ';', ',']

/-- `(send|recv)` and the blank behind it. -/
def sendOrRecv (content : List Char) : Option (String × List Char) :=
  match literal "send " content, literal "recv " content with
  | some rest, _ => some ("send", rest)
  | none, some rest => some ("recv", rest)
  | none, none => none

/-- `([...]+)(?:\s?(send|recv) ([...]+))?$`: a blank cannot be in a list, so the second list is what
    comes behind the last one. -/
def simulcastLists (content : List Char) : Option (List String) :=
  if content.all isListChar then
    if content = [] then none else some [String.ofList content, "", ""]
  else
    let list2 := (content.reverse.takeWhile isListChar).reverse
    match content.reverse.dropWhile isListChar with
    | ' ' :: c₄ :: c₃ :: c₂ :: c₁ :: before =>
      let dir2 := String.ofList [c₁, c₂, c₃, c₄]
      let list1 :=
        match before with
        | c :: list1 => if isSpace c then list1 else c :: list1
        | [] => []
      if dir2 ∈ ["send", "recv"] ∧ list1 ≠ [] ∧ list1.all isListChar ∧ list2 ≠ [] then
        some [String.ofList list1.reverse, dir2, String.ofList list2]
      else none
    | _ => none

/-- `^simulcast:(send|recv) ([...]+)(?:\s?(send|recv) ([...]+))?$` -/
def simulcastReg (content : List Char) : Option (List String) := do
  let rest ← literal "simulcast:" content
  let (dir1, rest) ← sendOrRecv rest
  return dir1 :: (← simulcastLists rest)

/-- The rule for rid lines. -/
def ridRule : Rule where
  push := "rids"
  reg := ridReg
  fields := [("id", .text), ("direction", .text), ("params", .text)]

/-- `grammar::Rule` with its name: a rule that has one does not push. -/
structure NamedRule extends Rule where
  name : String

/-- The rules for the attributes that an answer reads, and those of the capabilities. -/
def attributeRules : List NamedRule :=
  (rulesMap 'a').map (fun rule => ⟨rule, ""⟩) ++ [
    ⟨⟨"", extmapAllowMixedReg, []⟩, "extmapAllowMixed"⟩,
    ⟨⟨"", midReg, []⟩, "mid"⟩,
    ⟨ridRule, ""⟩,
    ⟨⟨"", simulcastReg,
      [("dir1", .text), ("list1", .text), ("dir2", .text), ("list2", .text)]⟩, "simulcast"⟩]

/-- `parseReg`: under its name a rule has an object, or a text if it names no members. -/
def NamedRule.attach (rule : NamedRule) (groups : List String) (location : Members) : Members :=
  if rule.name = "" then parseReg rule.toRule groups location
  else if rule.fields = [] then put rule.name (toType (groups.headD "") .text) location
  else
    let named :=
      match get rule.name location with
      | some (.obj members) => members
      | _ => []
    put rule.name (.obj (attachProperties rule.fields groups named)) location

/-- The first rule that matches. -/
def attachAttribute (location : Members) (content : List Char) : Members :=
  match attributeRules.findSome? fun rule => (rule.reg content).map fun groups => (rule, groups) with
  | some (rule, groups) => rule.attach groups location
  | none => location

/-- A media object: what is behind `m=`, and what is behind each `a=`. -/
def mediaObjectOf (media : List Char) (attributes : List (List Char)) : Members :=
  attributes.foldl attachAttribute
    (match mediaReg media with
    | some groups => attachProperties [("type", .text), ("port", .number), ("numPorts", .number),
        ("protocol", .text), ("payloads", .text)] groups blankMedia
    | none => blankMedia)

/-! ### What the grammar produces -/

/-- What an answer reads of the offered section. -/
def readKeys : List String :=
  ["type", "mid", "protocol", "ext", "extmapAllowMixed", "simulcast", "rids"]

/-- An offered section: the lines of some text, and members that other rules fill. -/
structure FromGrammar (offer : Json) : Prop where
  lines : ∃ media attributes, ∀ key ∈ readKeys,
    offer.find key = get key (mediaObjectOf media attributes)
  isObject : offer.isObject = true

/-- A direction of a stream. -/
def IsDirection (direction : String) : Prop := direction = "send" ∨ direction = "recv"

/-- A simulcast line: a list behind its direction, and another one perhaps. -/
structure SimulcastLine (simulcast : Json) : Prop where
  first : ∃ dir1 list1, simulcast.find "dir1" = some (.str dir1) ∧ IsDirection dir1 ∧
    simulcast.find "list1" = some (.str list1)
  second : simulcast.find "dir2" = none ∧ simulcast.find "list2" = none ∨
    ∃ dir2 list2, simulcast.find "dir2" = some (.str dir2) ∧ IsDirection dir2 ∧
      simulcast.find "list2" = some (.str list2)
  isObject : simulcast.isObject = true

/-- A rid line. -/
structure RidLine (rid : Json) : Prop where
  id : ∃ id, rid.find "id" = some (.str id)
  direction : ∃ direction, rid.find "direction" = some (.str direction)

/-- What the offered section has, where it has anything. -/
structure OfferShape (m : Members) : Prop where
  type : ∀ v, get "type" m = some v → ∃ type, v = .str type
  ext : ∀ v, get "ext" m = some v → ∃ lines, v = .arr lines ∧ ∀ line ∈ lines, line.isObject = true
  simulcast : ∀ v, get "simulcast" m = some v → SimulcastLine v
  rids : ∀ v, get "rids" m = some v → ∃ rids, v = .arr rids ∧ ∀ rid ∈ rids, RidLine rid

/-! ### Every text has the shape -/

theorem ridReg_groups {content : List Char} {groups : List String}
    (h : ridReg content = some groups) :
    ∃ id direction params, groups = [id, direction, params] ∧ id ≠ "" ∧ direction ≠ "" := by
  obtain ⟨_, -, h⟩ := Option.bind_eq_some_iff.mp h
  obtain ⟨_, -, h⟩ := Option.bind_eq_some_iff.mp h
  dsimp only at h
  split_ifs at h with hempty
  cases h
  exact ⟨_, _, _, rfl, fun hid => hempty (Or.inl hid), fun hdir => hempty (Or.inr hdir)⟩

theorem sendOrRecv_direction {content rest : List Char} {direction : String}
    (h : sendOrRecv content = some (direction, rest)) : IsDirection direction := by
  unfold sendOrRecv at h
  split at h
  · cases h
    exact Or.inl rfl
  · cases h
    exact Or.inr rfl
  · cases h

theorem ofList_ne_empty {cs : List Char} (h : cs ≠ []) : String.ofList cs ≠ "" := by
  intro hempty
  have hlist := congrArg String.toList hempty
  rw [String.toList_ofList] at hlist
  exact h hlist

theorem simulcastLists_groups {content : List Char} {groups : List String}
    (h : simulcastLists content = some groups) :
    ∃ list1 dir2 list2, groups = [list1, dir2, list2] ∧ list1 ≠ "" ∧
      (dir2 = "" ∧ list2 = "" ∨ IsDirection dir2 ∧ list2 ≠ "") := by
  unfold simulcastLists at h
  split_ifs at h with hall hnil
  · cases h
    exact ⟨_, _, _, rfl, ofList_ne_empty hnil, Or.inl ⟨rfl, rfl⟩⟩
  · simp only at h
    split at h
    · split_ifs at h with hc
      cases h
      obtain ⟨hdir, hlist1, -, hlist2⟩ := hc
      refine ⟨_, _, _, rfl, ofList_ne_empty ?_, Or.inr ⟨?_, ofList_ne_empty hlist2⟩⟩
      · exact fun hrev => hlist1 (List.reverse_eq_nil_iff.mp hrev)
      · simpa [IsDirection] using hdir
    · cases h

theorem simulcastReg_groups {content : List Char} {groups : List String}
    (h : simulcastReg content = some groups) :
    ∃ dir1 list1 dir2 list2, groups = [dir1, list1, dir2, list2] ∧ IsDirection dir1 ∧
      list1 ≠ "" ∧ (dir2 = "" ∧ list2 = "" ∨ IsDirection dir2 ∧ list2 ≠ "") := by
  obtain ⟨_, -, h⟩ := Option.bind_eq_some_iff.mp h
  obtain ⟨⟨dir1, rest⟩, hdir, h⟩ := Option.bind_eq_some_iff.mp h
  obtain ⟨lists, hlists, h⟩ := Option.bind_eq_some_iff.mp h
  cases h
  obtain ⟨list1, dir2, list2, rfl, hlist1, hsecond⟩ := simulcastLists_groups hlists
  exact ⟨dir1, list1, dir2, list2, rfl, sendOrRecv_direction hdir, hlist1, hsecond⟩

theorem IsDirection.ne_empty {direction : String} (h : IsDirection direction) : direction ≠ "" := by
  rcases h with rfl | rfl
  · decide
  · decide

theorem blankMedia_offerShape : OfferShape blankMedia := by
  refine ⟨?_, ?_, ?_, ?_⟩ <;> (intro v hv; simp [blankMedia, Lib.get] at hv)

/-- A member that has no shape changes nothing. -/
theorem OfferShape.put {m : Members} (h : OfferShape m) {key : String}
    (hkey : key ∉ ["type", "ext", "simulcast", "rids"]) (v : Json) : OfferShape (put key v m) := by
  simp only [List.mem_cons, List.not_mem_nil, or_false, not_or] at hkey
  obtain ⟨htype, hext, hsimulcast, hrids⟩ := hkey
  refine ⟨fun w hw => ?_, fun w hw => ?_, fun w hw => ?_, fun w hw => ?_⟩
  · rw [get_put_of_ne _ (Ne.symm htype)] at hw
    exact h.type w hw
  · rw [get_put_of_ne _ (Ne.symm hext)] at hw
    exact h.ext w hw
  · rw [get_put_of_ne _ (Ne.symm hsimulcast)] at hw
    exact h.simulcast w hw
  · rw [get_put_of_ne _ (Ne.symm hrids)] at hw
    exact h.rids w hw

/-- The line a section begins with. -/
theorem OfferShape.media (groups : List String) :
    OfferShape (attachProperties [("type", .text), ("port", .number), ("numPorts", .number),
      ("protocol", .text), ("payloads", .text)] groups blankMedia) := by
  have hkeep : ∀ k ∉ ["type", "port", "numPorts", "protocol", "payloads"],
      get k (attachProperties [("type", .text), ("port", .number), ("numPorts", .number),
        ("protocol", .text), ("payloads", .text)] groups blankMedia) = get k blankMedia :=
    fun k hk => get_attachProperties hk _
  refine ⟨fun v hv => ?_, fun v hv => ?_, fun v hv => ?_, fun v hv => ?_⟩
  · have htyped : FieldsTyped [("type", .text), ("port", .number), ("numPorts", .number),
        ("protocol", .text), ("payloads", .text)] blankMedia := by
      intro f hf w hw
      have hne : f.1 ∉ ["fmtp", "rtp"] := by
        simp only [List.mem_cons, List.not_mem_nil, or_false] at hf
        rcases hf with rfl | rfl | rfl | rfl | rfl <;> decide
      simp only [List.mem_cons, List.not_mem_nil, or_false, not_or] at hne
      simp [blankMedia, Lib.get, hne.1, hne.2] at hw
    exact attachProperties_typed (by decide) htyped _ (List.mem_cons_self ..) v hv
  · rw [hkeep _ (by decide)] at hv
    exact blankMedia_offerShape.ext v hv
  · rw [hkeep _ (by decide)] at hv
    exact blankMedia_offerShape.simulcast v hv
  · rw [hkeep _ (by decide)] at hv
    exact blankMedia_offerShape.rids v hv

/-- A line is pushed behind those that are there. -/
theorem parseReg_pushes (rule : Rule) (hpush : rule.push ≠ "") (groups : List String) (m : Members) :
    ∃ pushed, (∀ line ∈ pushed, ∃ items, get rule.push m = some (.arr items) ∧ line ∈ items) ∧
      ∀ k, get k (parseReg rule groups m) = if k = rule.push then
        some (.arr (pushed ++ [.obj (attachProperties rule.fields groups [])])) else get k m := by
  unfold parseReg
  rw [if_neg hpush]
  refine ⟨_, fun line hline => ?_, fun k => get_put _ _ _ _⟩
  split at hline
  · rename_i items hitems
    exact ⟨items, hitems, hline⟩
  · exact absurd hline List.not_mem_nil

/-- A line that is pushed to another array than those with a shape, or an extension. -/
theorem OfferShape.pushed {m : Members} (h : OfferShape m) {rule : Rule}
    (hrule : rule ∈ rulesMap 'a') (groups : List String) : OfferShape (parseReg rule groups m) := by
  have hpush := attribute_push rule hrule
  obtain ⟨hne, -⟩ := attribute_rules rule hrule
  obtain ⟨pushed, hpushed, hget⟩ := parseReg_pushes rule hne groups m
  have hkeep : ∀ k ∈ ["type", "simulcast", "rids"], get k (parseReg rule groups m) = get k m := by
    intro k hk
    rw [hget, if_neg]
    rintro rfl
    simp only [List.mem_cons, List.not_mem_nil, or_false] at hk hpush
    rcases hk with hk | hk | hk <;> simp [hk] at hpush
  refine ⟨fun v hv => ?_, fun v hv => ?_, fun v hv => ?_, fun v hv => ?_⟩
  · rw [hkeep _ (by simp)] at hv
    exact h.type v hv
  · rw [hget] at hv
    split_ifs at hv with hkey
    · cases hv
      refine ⟨_, rfl, fun line hline => ?_⟩
      rcases List.mem_append.mp hline with hold | hnew
      · obtain ⟨items, hitems, hmem⟩ := hpushed line hold
        rw [← hkey] at hitems
        obtain ⟨lines, heq, hall⟩ := h.ext _ hitems
        cases heq
        exact hall line hmem
      · rw [List.mem_singleton.mp hnew]
        rfl
    · exact h.ext v hv
  · rw [hkeep _ (by simp)] at hv
    exact h.simulcast v hv
  · rw [hkeep _ (by simp)] at hv
    exact h.rids v hv

/-- A rid line. -/
theorem OfferShape.rid {m : Members} (h : OfferShape m) {id direction : String} (hid : id ≠ "")
    (hdir : direction ≠ "") (params : String) :
    OfferShape (parseReg ridRule [id, direction, params] m) := by
  obtain ⟨pushed, hpushed, hget⟩ :=
    parseReg_pushes ridRule (by decide) [id, direction, params] m
  refine ⟨fun v hv => ?_, fun v hv => ?_, fun v hv => ?_, fun v hv => ?_⟩
  · rw [hget, if_neg (by decide)] at hv
    exact h.type v hv
  · rw [hget, if_neg (by decide)] at hv
    exact h.ext v hv
  · rw [hget, if_neg (by decide)] at hv
    exact h.simulcast v hv
  · cases (hget "rids").symm.trans hv
    refine ⟨_, rfl, fun rid hrid => ?_⟩
    rcases List.mem_append.mp hrid with hold | hnew
    · obtain ⟨items, hitems, hmem⟩ := hpushed rid hold
      obtain ⟨rids, heq, hall⟩ := h.rids _ hitems
      cases heq
      exact hall rid hmem
    · rw [List.mem_singleton.mp hnew]
      refine ⟨⟨id, ?_⟩, direction, ?_⟩
      · by_cases hparams : params = "" <;>
          simp [ridRule, attachProperties, hid, hdir, hparams, Json.find, get_put, toType]
      · by_cases hparams : params = "" <;>
          simp [ridRule, attachProperties, hid, hdir, hparams, Json.find, get_put, toType]

/-- The members that a simulcast line sets; those of a second list may be left of an earlier line. -/
theorem simulcastLine_attach {members : Members} {dir1 list1 dir2 list2 : String}
    (h : get "dir2" members = none ∧ get "list2" members = none ∨ SimulcastLine (.obj members))
    (hdir1 : IsDirection dir1) (hlist1 : list1 ≠ "")
    (hsecond : dir2 = "" ∧ list2 = "" ∨ IsDirection dir2 ∧ list2 ≠ "") :
    SimulcastLine (.obj (attachProperties
      [("dir1", .text), ("list1", .text), ("dir2", .text), ("list2", .text)]
      [dir1, list1, dir2, list2] members)) := by
  have hne1 := hdir1.ne_empty
  rcases hsecond with ⟨rfl, rfl⟩ | ⟨hdir2, hlist2⟩
  · refine ⟨⟨dir1, list1, ?_, hdir1, ?_⟩, ?_, rfl⟩
    · simp [attachProperties, hne1, hlist1, Json.find, get_put, toType]
    · simp [attachProperties, hne1, hlist1, Json.find, get_put, toType]
    · rcases h with ⟨hdir2, hlist2⟩ | hline
      · left
        simp [attachProperties, hne1, hlist1, Json.find, get_put, hdir2, hlist2]
      · have hsecond := hline.second
        simp only [Json.find] at hsecond
        simpa [attachProperties, hne1, hlist1, Json.find, get_put] using hsecond
  · have hne2 := hdir2.ne_empty
    refine ⟨⟨dir1, list1, ?_, hdir1, ?_⟩, Or.inr ⟨dir2, list2, ?_, hdir2, ?_⟩, rfl⟩
    · simp [attachProperties, hne1, hlist1, hne2, hlist2, Json.find, get_put, toType]
    · simp [attachProperties, hne1, hlist1, hne2, hlist2, Json.find, get_put, toType]
    · simp [attachProperties, hne1, hlist1, hne2, hlist2, Json.find, get_put, toType]
    · simp [attachProperties, hne1, hlist1, hne2, hlist2, Json.find, get_put, toType]

theorem OfferShape.attach {m : Members} (h : OfferShape m) {rule : NamedRule}
    (hrule : rule ∈ attributeRules) {content : List Char} {groups : List String}
    (hreg : rule.reg content = some groups) : OfferShape (rule.attach groups m) := by
  rcases List.mem_append.mp hrule with hold | hnew
  · obtain ⟨rule', hrule', rfl⟩ := List.mem_map.mp hold
    exact h.pushed hrule' groups
  · simp only [List.mem_cons, List.not_mem_nil, or_false] at hnew
    rcases hnew with rfl | rfl | rfl | rfl
    · exact h.put (by decide) _
    · exact h.put (by decide) _
    · obtain ⟨id, direction, params, rfl, hid, hdir⟩ := ridReg_groups hreg
      exact h.rid hid hdir params
    · obtain ⟨dir1, list1, dir2, list2, rfl, hdir1, hlist1, hsecond⟩ := simulcastReg_groups hreg
      have hnamed : ∀ named, (named = [] ∨ get "simulcast" m = some (.obj named)) →
          get "dir2" named = none ∧ get "list2" named = none ∨ SimulcastLine (.obj named) := by
        rintro named (rfl | hget)
        · exact Or.inl ⟨rfl, rfl⟩
        · exact Or.inr (h.simulcast _ hget)
      refine ⟨fun v hv => ?_, fun v hv => ?_, fun v hv => ?_, fun v hv => ?_⟩
      · exact h.type v ((get_put_of_ne _ (by decide) m).symm.trans hv)
      · exact h.ext v ((get_put_of_ne _ (by decide) m).symm.trans hv)
      · cases (get_put_self _ _ _).symm.trans hv
        refine simulcastLine_attach (hnamed _ ?_) hdir1 hlist1 hsecond
        split
        · exact Or.inr ‹_›
        · exact Or.inl rfl
      · exact h.rids v ((get_put_of_ne _ (by decide) m).symm.trans hv)

theorem OfferShape.attribute {m : Members} (h : OfferShape m) (content : List Char) :
    OfferShape (attachAttribute m content) := by
  unfold attachAttribute
  cases hfind : attributeRules.findSome? fun rule =>
      (rule.reg content).map fun groups => (rule, groups) with
  | none => exact h
  | some found =>
    obtain ⟨rule, hrule, hmap⟩ := List.exists_of_findSome?_eq_some hfind
    obtain ⟨groups, hreg, rfl⟩ := Option.map_eq_some_iff.mp hmap
    exact h.attach hrule hreg

/-- Whatever the lines are, what the answer reads has its shape. -/
theorem mediaObjectOf_shape (media : List Char) (attributes : List (List Char)) :
    OfferShape (mediaObjectOf media attributes) := by
  have hrun : ∀ (attributes : List (List Char)) (m : Members), OfferShape m →
      OfferShape (attributes.foldl attachAttribute m) := by
    intro attributes
    induction attributes with
    | nil => exact fun _ h => h
    | cons content attributes ih => exact fun m h => ih _ (h.attribute content)
  refine hrun attributes _ ?_
  cases mediaReg media with
  | none => exact blankMedia_offerShape
  | some groups => exact .media groups

end MediasoupClient.Sdp
