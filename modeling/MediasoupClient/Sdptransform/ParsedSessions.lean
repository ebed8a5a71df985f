import MediasoupClient.Sdp.ExtractCapabilities
import MediasoupClient.Sdptransform.CapabilityParse
import MediasoupClient.Sdptransform.OfferRules
import MediasoupClient.Sdptransform.Reprint

/-! What the rest of the program reads of a text.

        text  ──parse──▶  session  ──extractRtpCapabilities──▶  codecs, header extensions
                          a section  ──AnswerMediaSection──▶  mid, ext, rids, simulcast

    The capabilities are those of the session that `Sdp.parse` makes of the text, and a section
    is one that the answers are about: `Sdp.mediaObjectOf` of its own lines, in their order. Only
    `a=rid:3 send x-google-flag:x` and the like are missing, which the flag takes for itself. -/

namespace MediasoupClient.Sdptransform
open Lib Lib.Regex Sdp

variable {pf : Platform} {content : List Char} {g : List (List Char)}

/-! ### Capabilities -/

theorem read_same {keys arrays : List String} {a b : Members} (h : SameMembers keys arrays a b)
    {key : String} (hkey : key ∈ keys) : (Json.obj a).read key = (Json.obj b).read key := by
  rw [Json.read, Json.read, h.member key hkey]

theorem extractMedia_same (parseParams : String → Except Invalid Members) {a b : Members}
    (h : Same a b) (st : Extraction) :
    extractMedia parseParams st (.obj a) = extractMedia parseParams st (.obj b) := by
  have hsection : ∀ st kind, extractSection parseParams st kind (.obj a) =
      extractSection parseParams st kind (.obj b) := by
    intro st kind
    unfold extractSection
    have hread : ∀ key ∈ capabilityKeys, (Json.obj a).read key = (Json.obj b).read key :=
      fun _ hkey => read_same h hkey
    rw [hread "rtp" (by decide), hread "fmtp" (by decide), hread "rtcpFb" (by decide),
      hread "ext" (by decide)]
  unfold extractMedia
  have htype : (Json.obj a).read "type" = (Json.obj b).read "type" := read_same h (by decide)
  simp only [htype, hsection]

theorem extractMedias_same (parseParams : String → Except Invalid Members)
    {sections sections' : List Members} (h : List.Forall₂ Same sections sections')
    (st : Extraction) : (sections.map Json.obj).foldlM (extractMedia parseParams) st =
      (sections'.map Json.obj).foldlM (extractMedia parseParams) st := by
  induction h generalizing st with
  | nil => rfl
  | cons hm _ ih =>
    rw [List.map_cons, List.map_cons, List.foldlM_cons, List.foldlM_cons,
      extractMedia_same parseParams hm]
    exact bind_congr ih

theorem read_media (session : Members) (media : Json) :
    (liftM ((Json.obj (put "media" media session)).read "media") : Except Invalid Json) =
      .ok media := by
  refine lift_ok.mpr (Json.read_ok.mpr ?_)
  rw [Json.find, get_put, if_pos rfl]

/-- CORRECT: the capabilities of a text are those that the six rules read. -/
theorem extract_same (parseParams : String → Except Invalid Members) {sdp : String} {v : Json}
    (hok : parse pf sdp = .ok v) :
    extractRtpCapabilities parseParams v = extractRtpCapabilities parseParams (Sdp.parse sdp) := by
  obtain ⟨st, st', hsame, rfl, hparse⟩ := parse_same hok
  have hsections := extractMedias_same parseParams (List.forall₂_reverse_iff.mpr hsame.media)
    ⟨.empty, [], false, false⟩
  unfold extractRtpCapabilities
  rw [hparse, read_media, read_media, ok_bind, ok_bind, Json.elems, Json.elems, hsections]

theorem sample_extracted : extractRtpCapabilities (parseParams lp64) (.obj sampleSession) =
    extractRtpCapabilities (parseParams lp64) (Sdp.parse sampleText) := extract_same _ sample_parsed

/-! ### The rules that an answer is made with -/

/-- The arrays among what an answer reads. -/
def offerArrays : List String := ["ext", "rids"]

/-- The same members for an answer. -/
abbrev SameOffer : Members → Members → Prop := SameMembers readKeys offerArrays

/-- The rules of the grammar that `Sdp.attributeRules` has. -/
def sharedRules : List Rule := [rtpRule, fmtpRule, rtcpFbTrrIntRule, rtcpFbRule, extRule,
  extmapAllowMixedRule, midRule, ridsRule, simulcastRule]

theorem sharedRules_attributes :
    attributeRules.filter (fun r => r.key ∈ sharedRules.map Rule.key) = sharedRules := rfl

theorem sharedRules_same :
    List.Forall₂ (fun rule rule' => SameReads rule'.reg rule) sharedRules Sdp.attributeRules :=
  .cons rtpmap_same (.cons fmtp_same (.cons trrInt_same (.cons rtcpFb_same (.cons ext_same
    (.cons mixed_same (.cons mid_same (.cons rids_same (.cons simulcast_same .nil))))))))

/-- Of fewer rules it is still the first one. -/
theorem findRule_filter {rules : List Rule} {rule : Rule} {p : Rule → Bool}
    (h : findRule content rules = some (rule, g)) (hp : p rule = true) :
    findRule content (rules.filter p) = some (rule, g) := by
  induction rules with
  | nil => cases h
  | cons r rules ih =>
    rw [findRule, List.findSome?_cons] at h
    cases hsearch : r.reg.search content with
    | some g' =>
      rw [hsearch] at h
      cases h
      rw [List.filter_cons_of_pos hp, findRule, List.findSome?_cons, hsearch]
      rfl
    | none =>
      rw [hsearch] at h
      have hrest := ih h
      rw [List.filter_cons]
      split_ifs
      · rw [findRule, List.findSome?_cons, hsearch]
        exact hrest
      · exact hrest

/-- Rules that read the same, in the same order. -/
theorem findSome_same {rules : List Rule} {rules' : List NamedRule}
    (hsame : List.Forall₂ (fun rule rule' => SameReads rule'.reg rule) rules rules')
    (content : List Char) :
    (findRule content rules = none ∧
      (rules'.findSome? fun rule => (rule.reg content).map fun groups => (rule, groups)) = none) ∨
    ∃ rule g rule', findRule content rules = some (rule, g) ∧ (rule, rule') ∈ rules.zip rules' ∧
      (rules'.findSome? fun rule => (rule.reg content).map fun groups => (rule, groups)) =
        some (rule', g.map String.ofList) := by
  induction hsame with
  | nil => exact Or.inl ⟨rfl, rfl⟩
  | @cons r r' rules rules' hr _ ih =>
    rw [findRule, List.findSome?_cons, List.findSome?_cons, hr content, List.zip_cons_cons]
    cases hsearch : r.reg.search content with
    | some g => exact Or.inr ⟨r, g, r', rfl, List.mem_cons_self .., rfl⟩
    | none =>
      rcases ih with hnone | ⟨rule, g, rule', hfound, hmem, hfind⟩
      · exact Or.inl hnone
      · exact Or.inr ⟨rule, g, rule', hfound, List.mem_cons_of_mem _ hmem, hfind⟩

/-- A value under the name of its rule. -/
theorem value_same {rule : Rule} (hpush : rule.push = "") (hname : rule.name ≠ "")
    (hnames : rule.names = []) (htypes : rule.types = [.s]) (hg : g ≠ []) {a a' b : Members}
    (hsame : SameOffer a b) (harrays : rule.name ∉ offerArrays)
    (hok : storeReg pf rule g a = .ok a') :
    SameOffer a' (put rule.name (Sdp.toType ((g.map String.ofList).headD "") .text) b) := by
  obtain ⟨t, g, rfl⟩ := List.exists_cons_of_ne_nil hg
  unfold storeReg at hok
  rw [if_neg (not_not.mpr hpush), if_neg hname, if_pos hnames, htypes] at hok
  cases hok
  refine ⟨fun key hkey => ?_, fun key hkey v hv => ?_⟩
  · rw [get_put, get_put, hsame.member key hkey]
    rfl
  · have hne : key ≠ rule.name := fun heq => harrays (heq ▸ hkey)
    rw [get_put_of_ne _ hne] at hv
    exact hsame.array key hkey v hv

theorem simulcastRule_same : SameRule simulcastRule ⟨"", simulcastReg, [("dir1", .text),
    ("list1", .text), ("dir2", .text), ("list2", .text)]⟩ :=
  ⟨rfl, rfl, rfl, simulcast_same, .cons text_field (.cons text_field (.cons text_field
    (.cons text_field .nil)))⟩

theorem ridsRule_same : SameRule ridsRule ridRule :=
  ⟨rfl, rfl, rfl, rids_same, .cons text_field (.cons text_field (.cons text_field .nil))⟩

/-- The object of a simulcast line. -/
theorem simulcast_attached (hg : simulcastRule.reg.body.Fits g) {a a' b : Members}
    (hsame : SameOffer a b) (hok : storeReg pf simulcastRule g a = .ok a') :
    SameOffer a' (NamedRule.attach ⟨⟨"", simulcastReg, [("dir1", .text), ("list1", .text),
      ("dir2", .text), ("list2", .text)]⟩, "simulcast"⟩ (g.map String.ofList) b) := by
  have hsimulcast : get "simulcast" a = get "simulcast" b := hsame.member _ (by decide)
  have hattach : ∀ named, attachNames pf simulcastRule.names simulcastRule.types g named = _ :=
    simulcastRule_same.attach hg
  unfold storeReg at hok
  rw [if_neg (by decide), if_neg (by decide), if_neg (by decide)] at hok
  simp only [hattach] at hok
  cases hok
  unfold NamedRule.attach
  rw [if_neg (by decide), if_neg (by decide), ← hsimulcast]
  refine ⟨fun key hkey => ?_, fun key hkey v hv => ?_⟩
  · rw [get_put, get_put, hsame.member key hkey]
    rfl
  · have hkeys : "simulcast" ∉ offerArrays := by decide
    have hne : key ≠ "simulcast" := fun heq => hkeys (heq ▸ hkey)
    rw [get_put_of_ne _ hne] at hv
    exact hsame.array key hkey v hv

/-- A rule with a member that an answer reads attaches the same as its pair. -/
theorem attach_same {rule : Rule} {rule' : NamedRule}
    (hpair : (rule, rule') ∈ sharedRules.zip Sdp.attributeRules) (hkey : rule.key ∈ readKeys)
    (hfits : rule.reg.body.Fits g) {a a' b : Members} (hsame : SameOffer a b)
    (hok : storeReg pf rule g a = .ok a') :
    SameOffer a' (rule'.attach (g.map String.ofList) b) := by
  simp only [sharedRules, Sdp.attributeRules, Sdp.rulesMap, List.map_cons, List.map_nil,
    List.cons_append, List.nil_append, List.zip_cons_cons, List.zip_nil_left, List.mem_cons,
    Prod.mk.injEq, List.not_mem_nil, or_false] at hpair
  rcases hpair with h | h | h | h | h | h | h | h | h <;> obtain ⟨rfl, rfl⟩ := h
  · exact absurd hkey (by decide)
  · exact absurd hkey (by decide)
  · exact absurd hkey (by decide)
  · exact absurd hkey (by decide)
  · obtain ⟨a'', hread, hsame'⟩ := extRule_same.pushes hfits hsame (by decide) hkey (by decide)
    cases hread.symm.trans hok
    exact hsame'
  · rw [NamedRule.attach, if_neg (by decide), if_pos rfl]
    exact value_same rfl (by decide) rfl rfl (fun hnil => by cases hnil ▸ hfits) hsame (by decide) hok
  · rw [NamedRule.attach, if_neg (by decide), if_pos rfl]
    exact value_same rfl (by decide) rfl rfl (fun hnil => by cases hnil ▸ hfits) hsame (by decide) hok
  · obtain ⟨a'', hread, hsame'⟩ := ridsRule_same.pushes hfits hsame (by decide) hkey (by decide)
    cases hread.symm.trans hok
    exact hsame'
  · exact simulcast_attached hfits hsame hok

/-- Where a rule attaches. -/
def attachKey (rule : NamedRule) : String := if rule.name = "" then rule.push else rule.name

theorem attach_put {rule : NamedRule} (h : attachKey rule ≠ "") (groups : List String)
    (b : Members) : ∃ v, rule.attach groups b = put (attachKey rule) v b := by
  unfold attachKey at h ⊢
  unfold NamedRule.attach
  by_cases hname : rule.name = ""
  · rw [if_pos hname] at h ⊢
    rw [if_pos hname, Sdp.parseReg, if_neg h]
    exact ⟨_, rfl⟩
  · rw [if_neg hname, if_neg hname]
    split_ifs
    · exact ⟨_, rfl⟩
    · exact ⟨_, rfl⟩

/-- Any other one attaches elsewhere. -/
theorem attach_other {rule : Rule} {rule' : NamedRule}
    (hpair : (rule, rule') ∈ sharedRules.zip Sdp.attributeRules) (hkey : rule.key ∉ readKeys)
    {a b : Members} (hsame : SameOffer a b) (groups : List String) :
    SameOffer a (rule'.attach groups b) := by
  have hkeys : ∀ pair ∈ sharedRules.zip Sdp.attributeRules,
      attachKey pair.2 = pair.1.key ∧ attachKey pair.2 ≠ "" := by decide
  obtain ⟨heq, hne⟩ := hkeys _ hpair
  obtain ⟨v, hput⟩ := attach_put hne groups b
  have harrays : ∀ key ∈ offerArrays, key ∈ readKeys := by decide
  have hother : ∀ key ∈ readKeys, key ≠ attachKey rule' := fun key hmem h =>
    hkey (heq ▸ h ▸ hmem)
  rw [hput]
  refine ⟨fun key hmem => ?_, fun key hmem w hw => hsame.array key hmem w ?_⟩
  · rw [get_put_of_ne _ (hother key hmem), hsame.member key hmem]
  · rw [get_put_of_ne _ (hother key (harrays key hmem))] at hw
    exact hw

/-- The rule that looks for its flag anywhere takes the line from the rules behind it. -/
def flagged (content : List Char) : Bool :=
  (findRule content (rulesMap 'a')).any fun found => found.1.name = "xGoogleFlag"

/-- No other rule takes a line that a rule with a member for an answer matches. -/
theorem shared_found {rule r : Rule} (hrule : rule ∈ sharedRules) (hkey : rule.key ∈ readKeys)
    (hsearch : rule.reg.search content = some g) {g' : List (List Char)}
    (hfind : findRule content (rulesMap 'a') = some (r, g')) :
    r = rule ∨ flagged content = true := by
  have hall : ∀ rule ∈ sharedRules, rule.reg.anchored = true ∧ rule.push ≠ "invalid" ∧
      (rule.push = "rtcpFb" → rule.key ∉ readKeys) := by decide
  obtain ⟨hanchored, hinvalid, hfeedback⟩ := hall rule hrule
  have hattribute : rule ∈ attributeRules :=
    List.mem_of_mem_filter (sharedRules_attributes ▸ hrule)
  have hread : rule.Reads content g := first_of_search hanchored hsearch
  refine (found_of_tellable attributes_tellable hattribute hread hfind).imp id fun htexts => ?_
  simp only [byTexts, Bool.or_eq_true, Bool.and_eq_true, decide_eq_true_eq] at htexts
  rcases htexts with (h | ⟨hflag, -⟩) | ⟨-, h⟩
  · exact absurd h hinvalid
  · rw [flagged, hfind, Option.any_some]
    exact decide_eq_true hflag
  · exact absurd hkey (hfeedback h)

/-- A line that stores nothing for an answer attaches nothing. -/
theorem attached_nothing {a b : Members} (hsame : SameOffer a b)
    (hother : ∀ rule g, findRule content (rulesMap 'a') = some (rule, g) → rule.key ∉ readKeys) :
    SameOffer a (if flagged content then b else attachAttribute b content) := by
  split_ifs with hflag
  · exact hsame
  rw [attachAttribute]
  rcases findSome_same sharedRules_same content with
    ⟨-, hnone⟩ | ⟨rule, g, rule', hfound, hpair, hfirst⟩
  · rw [hnone]
    exact hsame
  rw [hfirst]
  obtain ⟨hrule, hsearch⟩ := search_of_findRule hfound
  have hattribute : rule ∈ rulesMap 'a' :=
    List.mem_of_mem_filter (sharedRules_attributes ▸ hrule)
  obtain ⟨r, g', hfind⟩ := findRule_of_search hattribute hsearch
  refine attach_other hpair (fun hread => hother r g' hfind ?_) hsame _
  exact (shared_found hrule hread hsearch hfind).resolve_right hflag ▸ hread

/-- A line of a section, if an answer reads it or not. -/
theorem offered_attribute {a a' b : Members} (hsame : SameOffer a b)
    (hok : storeRules pf 'a' content a = .ok a') :
    SameOffer a' (if flagged content then b else attachAttribute b content) := by
  unfold storeRules at hok
  split at hok
  swap
  · rename_i hnone
    cases hok
    exact attached_nothing hsame fun rule g hfind => nomatch hnone.symm.trans hfind
  rename_i rule g hfind
  obtain ⟨hrule, hsearch⟩ := search_of_findRule hfind
  by_cases hkey : rule.key ∈ readKeys
  swap
  · refine attached_nothing (storeReg_other (by decide) hrule hkey hsame hok) fun r g' hr => ?_
    cases hfind.symm.trans hr
    exact hkey
  have hread : ∀ rule ∈ attributeRules, rule.key ∈ readKeys →
      rule.key ∈ sharedRules.map Rule.key ∧ rule.name ≠ "xGoogleFlag" := by decide
  obtain ⟨hshared, hname⟩ := hread rule hrule hkey
  have hfound := findRule_filter (p := fun r => r.key ∈ sharedRules.map Rule.key) hfind
    (decide_eq_true hshared)
  have hflagged : flagged content = false := by
    rw [flagged, hfind, Option.any_some]
    exact decide_eq_false hname
  rw [hflagged, if_neg Bool.false_ne_true, attachAttribute]
  rcases findSome_same sharedRules_same content with
    ⟨hnone, -⟩ | ⟨r, g', rule', hr, hpair, hfirst⟩
  · cases hnone.symm.trans hfound
  · cases hr.symm.trans hfound
    rw [hfirst]
    exact attach_same hpair hkey (fits_of_search hsearch) hsame hok

/-! ### Sections -/

/-- The lines of a section: what is behind its `m=`, and behind each `a=` up to the next one. -/
structure SectionLines where
  media : List Char
  attributes : List (List Char)

/-- A line in turn, with the latest section first. -/
def addLine (sections : List SectionLines) (line : List Char) : List SectionLines :=
  match validLine line with
  | none => sections
  | some (type, content) =>
    if type = 'm' then ⟨content, []⟩ :: sections
    else
      match sections with
      | [] => []
      | s :: rest =>
        (if type = 'a' then { s with attributes := s.attributes ++ [content] } else s) :: rest

/-- The sections of a text. -/
def sectionLines (sdp : String) : List SectionLines :=
  ((split sdp '\n').foldl (fun sections line => addLine sections (withoutCr line)) []).reverse

/-- What an answer reads of the lines, without those that the flag takes. -/
def SectionLines.object (lines : SectionLines) : Members :=
  mediaObjectOf lines.media (lines.attributes.filter fun content => !flagged content)

theorem opened_offered {m : Members} (hok : storeRules pf 'm' content blankMedia = .ok m) :
    SameOffer m (SectionLines.mk content []).object := by
  have hmedia : mediaObjectOf content [] = m := by
    have hfind : findRule content (rulesMap 'm') =
        (mediaRule.reg.search content).map fun groups => (mediaRule, groups) := by
      rw [rulesMap, findRule, List.findSome?_cons, List.findSome?_nil]
      cases mediaRule.reg.search content <;> rfl
    unfold storeRules at hok
    rw [hfind] at hok
    rw [mediaObjectOf, List.foldl_nil, media_same content]
    cases hsearch : mediaRule.reg.search content with
    | none =>
      rw [hsearch] at hok
      cases hok
      rfl
    | some g =>
      rw [hsearch] at hok
      cases (mediaRule_same.attach (fits_of_search hsearch) blankMedia).symm.trans hok
      rfl
  rw [SectionLines.object, List.filter_nil, hmedia]
  exact opened_same (by decide) hok

theorem attribute_offered {m m' : Members} {lines : SectionLines} (h : SameOffer m lines.object)
    (hok : storeRules pf 'a' content m = .ok m') :
    SameOffer m' (SectionLines.mk lines.media (lines.attributes ++ [content])).object := by
  have hobject : (SectionLines.mk lines.media (lines.attributes ++ [content])).object =
      if flagged content then lines.object else attachAttribute lines.object content := by
    unfold SectionLines.object mediaObjectOf
    rw [List.filter_append, List.foldl_append, List.filter_singleton]
    cases flagged content <;> rfl
  rw [hobject]
  exact offered_attribute h hok

/-- The sections that are read, and the lines of each. -/
abbrev Offered : List Members → List SectionLines → Prop :=
  List.Forall₂ fun m lines => SameOffer m lines.object

theorem storeLine_offered {st st' : Parsing} {sections : List SectionLines} {line : List Char}
    (h : Offered st.media sections) (hok : storeLine pf st line = .ok st') :
    Offered st'.media (addLine sections line) := by
  unfold storeLine at hok
  unfold addLine
  cases hvalid : validLine line with
  | none =>
    rw [hvalid] at hok
    cases hok
    exact h
  | some found =>
    obtain ⟨type, content⟩ := found
    rw [hvalid] at hok
    simp only at hok ⊢
    by_cases hm : type = 'm'
    · rw [if_pos hm] at hok ⊢
      subst hm
      obtain ⟨m, hread, heq⟩ := bind_ok.mp hok
      cases heq
      exact .cons (opened_offered hread) h
    rw [if_neg hm] at hok ⊢
    obtain ⟨session, media⟩ := st
    rcases h with _ | ⟨hfirst, hrest⟩
    · obtain ⟨session', -, heq⟩ := bind_ok.mp hok
      cases heq
      exact .nil
    · obtain ⟨m, hread, heq⟩ := bind_ok.mp hok
      cases heq
      refine .cons ?_ hrest
      by_cases ha : type = 'a'
      · rw [if_pos ha]
        subst ha
        exact attribute_offered hfirst hread
      · rw [if_neg ha]
        exact other_line_same (by decide) hm ha hfirst hread

theorem storeLines_offered {lines : List String} {st st' : Parsing} {sections : List SectionLines}
    (h : Offered st.media sections)
    (hok : lines.foldlM (fun st line => storeLine pf st (withoutCr line)) st = .ok st') :
    Offered st'.media
      (lines.foldl (fun sections line => addLine sections (withoutCr line)) sections) := by
  induction lines generalizing st sections with
  | nil =>
    cases hok
    exact h
  | cons line lines ih =>
    rw [List.foldlM_cons] at hok
    obtain ⟨st₁, hline, hrest⟩ := bind_ok.mp hok
    exact ih (storeLine_offered h hline) hrest

/-- CORRECT: the sections of a text are those that the answers are about, each one of its own
    lines. -/
theorem parsed_fromGrammar {sdp : String} {v : Json} (hok : parse pf sdp = .ok v) :
    List.Forall₂ (fun m lines => FromGrammar m ∧ ∀ key ∈ readKeys,
        m.find key = get key (SectionLines.object lines))
      (sectionsOf v) (sectionLines sdp) := by
  rw [parse_eq] at hok
  obtain ⟨st, hfold, hput⟩ := bind_ok.mp hok
  cases hput
  have hoffered := List.forall₂_reverse_iff.mpr
    (storeLines_offered .nil hfold)
  have hsections : sectionsOf (.obj (put "media" (.arr (st.media.reverse.map .obj)) st.session)) =
      st.media.reverse.map .obj := by
    rw [sectionsOf, Json.find, get_put, if_pos rfl]
    rfl
  rw [hsections, List.forall₂_map_left_iff]
  refine hoffered.imp fun m lines hsame => ?_
  exact ⟨⟨⟨_, _, hsame.member⟩, rfl⟩, hsame.member⟩

/-- Two streams of a section, and a line that the flag takes from the rule for them. -/
def offerText : String := "m=video 9 RTP/AVP 96\r\na=mid:0\r\na=rid:1 send\r\na=rid:2 send\r\n" ++
  "a=simulcast:send 1;2\r\na=rid:3 send x-google-flag:x\r\nm=audio 9 RTP/AVP 0\r\na=extmap:1 x\r\n"

def offerVideo : Members := [
  ("fmtp", .arr []),
  ("mid", .str "0"),
  ("payloads", .str "96"),
  ("port", .int 9),
  ("protocol", .str "RTP/AVP"),
  ("rids", .arr [.obj [("direction", .str "send"), ("id", .str "1")],
    .obj [("direction", .str "send"), ("id", .str "2")]]),
  ("rtp", .arr []),
  ("simulcast", .obj [("dir1", .str "send"), ("list1", .str "1;2")]),
  ("type", .str "video"),
  ("xGoogleFlag", .str "x")]

def offerAudio : Members := [
  ("ext", .arr [.obj [("uri", .str "x"), ("value", .int 1)]]),
  ("fmtp", .arr []),
  ("payloads", .str "0"),
  ("port", .int 9),
  ("protocol", .str "RTP/AVP"),
  ("rtp", .arr []),
  ("type", .str "audio")]

set_option maxRecDepth 100000 in
theorem offer_parsed : parse lp64 offerText =
    .ok (.obj [("media", .arr [.obj offerVideo, .obj offerAudio])]) := by
  rw [parse_eq]
  rfl

def offerLines : List SectionLines := [
  ⟨"video 9 RTP/AVP 96".toList, ["mid:0".toList, "rid:1 send".toList, "rid:2 send".toList,
    "simulcast:send 1;2".toList, "rid:3 send x-google-flag:x".toList]⟩,
  ⟨"audio 9 RTP/AVP 0".toList, ["extmap:1 x".toList]⟩]

set_option maxRecDepth 100000 in
theorem offer_sections : sectionLines offerText = offerLines ∧
    List.Forall₂ (fun m lines => FromGrammar m ∧ ∀ key ∈ readKeys,
        m.find key = get key (SectionLines.object lines))
      [.obj offerVideo, .obj offerAudio] offerLines :=
  ⟨rfl, parsed_fromGrammar offer_parsed⟩

end MediasoupClient.Sdptransform
