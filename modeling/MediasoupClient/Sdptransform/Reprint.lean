import MediasoupClient.Sdp.CodecParameters
import MediasoupClient.Sdptransform.Shapes

/-! What has been read of a text is printed, and read again as the same.

        text   ──parse──▶  session  ──write──▶  text'   ──parse──▶  session

    The texts differ in the order of the lines, in the lines that no rule knows and in numbers with
    zeros in front; the sessions are the same, up to a version and a name that were missing. What
    does not come back is what `write` has no place for:

        a section       s=, t=, ... behind its m=
        rtcp            an address without IPv4 or IPv6, or one of these without the address
        candidates      rport without raddr, network-id without a generation
        fingerprint     no type, printed as the section's
        framerate       a number that is not printed as digits, a point and digits -/

namespace MediasoupClient.Sdptransform
open Lib Lib.Regex Sdp

section
variable (pf : Platform) (dump : Json → String)

/-- A framerate that is printed as its rule asks for, and read as the same number. -/
structure Framerate (v : Json) : Prop where
  fits : framerateRule.reg.body.Fits [argText dump v]
  read : toType pf (argText dump v) .f = .ok v

/-- A location in which `write` prints of each value all that has been read. -/
structure WholeLocation (rules : List Rule) (m : Members) : Prop where
  value : ∀ rule ∈ rules, rule.push = "" → ∀ v, get rule.key m = some v → Whole rule v
  elements : ∀ rule ∈ rules, rule.push ≠ "" → ∀ es, get rule.key m = some (.arr es) →
    ∀ e ∈ es, Whole rule e
  framerate : ∀ v, get "framerate" m = some v → Framerate pf dump v

/-- A section with no lines but its own, and without the members that `write` looks for twice. -/
structure WholeSection (m : Members) : Prop extends WholeLocation pf dump innerRules m where
  type : ∀ v, get "fingerprint" m = some v → v.find "type" = none → get "type" m = none
  port : ∀ v, get "rtcp" m = some v → v.find "port" = none → get "port" m = none
  own : ∀ rule ∈ outerRules, rule.key ∉ innerRules.map Rule.key → get rule.key m = none

/-- A session with such sections. -/
structure WholeSession (session : Members) : Prop extends
    WholeLocation pf dump outerRules session where
  media : ∀ m, .obj m ∈ ((get "media" session).getD .null).elems → WholeSection pf dump m

end

variable {pf : Platform} {dump : Json → String} {blank m : Members}

/-! ### Members -/

/-- A framerate has digits and a point. -/
theorem framerate_chars {t : List Char} (h : Lang (concat [many1 Char.isDigit,
    .alt .eol (concat [lit ".", many1 Char.isDigit])]) t) :
    ∀ c ∈ t, (c.isDigit || c = '.') = true := by
  obtain ⟨whole, w, rfl, hwhole, hw⟩ := lang_seq.mp h
  have hdigits : ∀ {t : List Char}, Lang (many1 Char.isDigit) t →
      ∀ c ∈ t, (c.isDigit || c = '.') = true := fun ht c hc => by
    rw [(lang_many1.mp ht).2 c hc, Bool.true_or]
  refine List.forall_mem_append.mpr ⟨hdigits hwhole, ?_⟩
  rcases lang_alt.mp hw with hw | hw
  · rw [lang_eol.mp hw]
    exact fun c hc => absurd hc List.not_mem_nil
  · obtain ⟨point, frac, rfl, hpoint, hfrac⟩ := lang_seq.mp hw
    rw [lang_chars.mp hpoint]
    exact List.forall_mem_cons.mpr ⟨by decide, hdigits hfrac⟩

theorem Framerate.stored {v : Json} (h : Framerate pf dump v) : Stored pf dump framerateRule v where
  taken := by
    have hchars : ∀ c ∈ argText dump v, (c.isDigit || c = '.') = true := by
      rcases h.fits with _ | ⟨ht, _ | _⟩
      exact framerate_chars ht
    have hnot : ∀ c : Char, (c.isDigit || c = '.') = false → c ∉ argText dump v := fun c hc hmem => by
      rw [hchars c hmem] at hc
      cases hc
    have hkept : Kept framerateRule (argText dump v) :=
      ⟨hnot '\n' (by decide), fun _ hflag => hnot 'x' (by decide) (hflag.subset (by decide))⟩
    exact ⟨[argText dump v], fun _ => ⟨_, rfl, rfl, h.read⟩, fun hne => absurd rfl hne, h.fits,
      List.forall_mem_singleton.mpr hkept.1,
      told_unasked rfl (List.forall_mem_singleton.mpr hkept)⟩
  members := fun hne => absurd rfl hne

/-- What has been read, and is printed as a whole. -/
theorem Stored.printable {rule : Rule} {v : Json} (h : Stored pf dump rule v)
    (hwhole : Whole rule v) : Printable pf dump rule v where
  prints := by
    obtain ⟨g, hg⟩ := h.taken
    exact ⟨g, hg, hwhole⟩
  members := h.members

theorem outerRules_float : outerRules.filter (fun r => ValueType.f ∈ r.types) = [framerateRule] := rfl

theorem Gathered.member (h : Gathered pf dump blank m) {rules : List Rule}
    (hrules : ∀ rule ∈ rules, rule ∈ outerRules) (hwhole : WholeLocation pf dump rules m) :
    ∀ rule ∈ rules, ∀ v, get rule.key m = some v → Member pf dump rule v := by
  intro rule hrule v hv
  unfold Member
  by_cases hf : ValueType.f ∈ rule.types
  · obtain rfl : rule = framerateRule :=
      outerRules_of outerRules_float (hrules rule hrule) (decide_eq_true hf)
    have hpush : framerateRule.push = "" := rfl
    rw [if_pos hpush]
    exact (hwhole.framerate v hv).stored.printable (hwhole.value _ hrule rfl v hv)
  · have hread := h.stored rule (hrules rule hrule) hf v hv
    unfold ReadMember at hread
    split_ifs at hread ⊢ with hpush
    · exact hread.printable (hwhole.value rule hrule hpush v hv)
    · obtain ⟨es, rfl, hes⟩ := hread
      exact ⟨es, rfl, fun e he =>
        (hes e he).printable (hwhole.elements rule hrule hpush es hv e he)⟩

/-- The only name of an object that is also a key. -/
theorem names_key : ∀ rule ∈ outerRules, rule.push = "" → ∀ name ∈ rule.names,
    name ∈ outerRules.map Rule.key → rule.key = "connection" ∧ name = "version" := by
  decide

/-- Those that are also members of the line of a section. -/
theorem names_line : ∀ rule ∈ outerRules, rule.push = "" → ∀ name ∈ rule.names,
    name ∈ mediaRule.names → (rule.key = "fingerprint" ∧ name = "type") ∨
      (rule.key = "rtcp" ∧ name = "port") := by decide

theorem names_media : ∀ rule ∈ outerRules, "media" ∉ rule.names := by decide

/-- The version of a connection is never missing. -/
theorem connection_version {v : Json} {rule : Rule} (hrule : rule ∈ outerRules)
    (hkey : rule.key = "connection") (h : Member pf dump rule v) : v.find "version" ≠ none := by
  obtain rfl : rule = connectionRule :=
    outerRules_of (p := fun r => r.key = "connection") rfl hrule (decide_eq_true hkey)
  have hpush : connectionRule.push = "" := rfl
  rw [Member, if_pos hpush] at h
  obtain ⟨g, hprints⟩ := h.prints
  exact version_of_connection hprints

/-- No value that is printed is an empty array. -/
theorem member_filled {rule : Rule} (hpush : rule.push = "") {v : Json}
    (h : Member pf dump rule v) : v ≠ .arr [] := by
  rw [Member, if_pos hpush] at h
  rintro rfl
  exact Bool.false_ne_true (printable_shown h).2

/-! ### Sections and the session -/

theorem outerRules_wellFormed {rule : Rule} (hrule : rule ∈ outerRules) : rule.wellFormed = true := by
  obtain ⟨tr, htr, rfl⟩ := List.mem_map.mp hrule
  obtain ⟨htype, hmem⟩ := mem_ordered htr
  refine rulesMap_wellFormed (fun heq => ?_) hmem
  rw [heq] at htype
  exact absurd htype (by decide)

theorem innerRules_outer : ∀ rule ∈ innerRules, rule ∈ outerRules := by
  intro rule hrule
  obtain ⟨tr, htr, rfl⟩ := List.mem_map.mp hrule
  obtain ⟨htype, hmem⟩ := mem_ordered htr
  refine mem_outerRules (fun heq => ?_) hmem
  rw [heq] at htype
  exact absurd htype (by decide)

theorem innerRules_arrays : ∀ k ∈ ["rtp", "fmtp"], ∃ rule ∈ innerRules, rule.key = k ∧
    rule.push ≠ "" := by decide

/-- A section that has been read, and has no lines of a session. -/
theorem section_read_whole {base : Members} (hopened : Opened pf dump base)
    (h : Gathered pf dump base m) (hwhole : WholeSection pf dump m) : Section pf dump m := by
  have hmember := h.member innerRules_outer hwhole.toWholeLocation
  have hnames : ∀ name ∈ mediaRule.names, get name m = get name base := fun name hname =>
    h.known name fun hmem => by
      obtain ⟨rule, hrule, rfl⟩ := List.mem_map.mp hmem
      exact (outerRules_known hrule).1 hname
  have hother : ∀ k, k ∉ outerRules.map Rule.key → k ∉ mediaRule.names → get k m = none := by
    intro k hk hname
    rw [h.known k hk, hopened.other k hname, get_blankMedia, if_neg]
    exact fun harray => hk (List.map_subset _ innerRules_outer (arrays_inner k harray))
  refine ⟨h.sorted, ?_, ⟨hmember, ?_⟩, ?_, ?_, ?_⟩
  · obtain ⟨g, hg⟩ := hopened.line
    refine ⟨g, ⟨fun hnil => absurd hnil (by decide), fun hne => ?_, hg.fits, hg.oneLine, ?_⟩, ?_⟩
    · refine holds_congr (hg.named hne) fun nt hnt => ?_
      exact hnames nt.1 (List.of_mem_zip hnt).1
    · exact told_unasked rfl fun t ht => ⟨hg.oneLine t ht, fun hbehind => nomatch hbehind⟩
    · constructor <;> intro h <;> exact absurd h (by decide)
  · intro rule hrule hpush v hv name hname hnone
    have houter := innerRules_outer rule hrule
    by_cases hmem : name ∈ outerRules.map Rule.key
    · obtain ⟨hconnection, rfl⟩ := names_key rule houter hpush name hname hmem
      exact absurd hnone (connection_version houter hconnection
        (hmember rule hrule v hv))
    by_cases hname' : name ∈ mediaRule.names
    · rcases names_line rule houter hpush name hname hname' with ⟨hfingerprint, rfl⟩ | ⟨hrtcp, rfl⟩
      · exact hwhole.type v (hfingerprint ▸ hv) hnone
      · exact hwhole.port v (hrtcp ▸ hv) hnone
    · exact hother name hmem hname'
  · intro k hk
    obtain ⟨rule, hrule, rfl, hpush⟩ := innerRules_arrays k hk
    have hsome : (get rule.key base).isSome = true := by
      rw [hopened.other _ (outerRules_known (innerRules_outer rule hrule)).1, get_blankMedia,
        if_pos hk]
      rfl
    obtain ⟨v, hv⟩ := Option.isSome_iff_exists.mp (h.kept _ hsome)
    have hstored := hmember rule hrule v hv
    rw [Member, if_neg hpush] at hstored
    obtain ⟨es, rfl, -⟩ := hstored
    exact ⟨es, hv⟩
  · intro rule hrule harray hempty
    by_cases hpush : rule.push = ""
    · exact member_filled hpush (hmember rule hrule _ hempty) rfl
    · have hbase := h.filled rule (innerRules_outer rule hrule) hpush hempty
      rw [hopened.other _ (outerRules_known (innerRules_outer rule hrule)).1, get_blankMedia,
        if_neg harray] at hbase
      cases hbase
  · intro k hname hk
    by_cases hmem : k ∈ outerRules.map Rule.key
    · obtain ⟨rule, hrule, rfl⟩ := List.mem_map.mp hmem
      exact hwhole.own rule hrule hk
    · exact hother k hmem hname

theorem media_key : "media" ∉ outerRules.map Rule.key := by decide

/-- What a text leaves can be printed. -/
theorem session_parsed {sdp : String} (hplain : plainText sdp = true) {session : Members}
    (hok : parse pf sdp = .ok (.obj session)) (hwhole : WholeSession pf dump session) :
    Session pf dump session := by
  have hparsed : ∃ st, Collected pf dump st ∧ Json.obj session =
      .obj (put "media" (.arr (st.media.reverse.map .obj)) st.session) :=
    store_collected hplain ((parse_eq sdp).symm.trans hok)
  obtain ⟨st, hcollected, heq⟩ := hparsed
  obtain rfl := Json.obj.inj heq
  have hget : ∀ k, k ≠ "media" → get k (put "media" (.arr (st.media.reverse.map .obj)) st.session) =
      get k st.session := fun k hk => get_put_of_ne _ hk _
  have hkeys : ∀ rule ∈ outerRules, rule.key ≠ "media" := fun rule hrule heq =>
    media_key (heq ▸ List.mem_map_of_mem hrule)
  have hmedia := get_put_self "media" (Json.arr (st.media.reverse.map .obj)) st.session
  have hlocation : WholeLocation pf dump outerRules st.session := by
    refine ⟨fun rule hrule hpush v hv => hwhole.value rule hrule hpush v ?_,
      fun rule hrule hpush es hes => hwhole.elements rule hrule hpush es ?_,
      fun v hv => hwhole.framerate v ?_⟩
    · rw [hget _ (hkeys rule hrule), hv]
    · rw [hget _ (hkeys rule hrule), hes]
    · rw [hget _ (by decide), hv]
  have hmember := hcollected.session.member (fun _ hrule => hrule) hlocation
  have hother : ∀ k, k ≠ "media" → k ∉ outerRules.map Rule.key →
      get k (put "media" (.arr (st.media.reverse.map .obj)) st.session) = none := fun k hk hkey => by
    rw [hget k hk, hcollected.session.known k hkey]
    rfl
  refine ⟨sorted_put _ _ hcollected.session.sorted, ⟨fun rule hrule v hv => ?_, ?_⟩, ?_,
    hother, st.media.reverse, hmedia, fun m hm => ?_⟩
  · rw [hget _ (hkeys rule hrule)] at hv
    exact hmember rule hrule v hv
  · intro rule hrule hpush v hv name hname hnone
    rw [hget _ (hkeys rule hrule)] at hv
    by_cases hmem : name ∈ outerRules.map Rule.key
    · obtain ⟨hconnection, rfl⟩ := names_key rule hrule hpush name hname hmem
      exact absurd hnone (connection_version hrule hconnection (hmember rule hrule v hv))
    · exact hother name (fun heq => names_media rule hrule (heq ▸ hname)) hmem
  · intro rule hrule hempty
    rw [hget _ (hkeys rule hrule)] at hempty
    by_cases hpush : rule.push = ""
    · exact member_filled hpush (hmember rule hrule _ hempty) rfl
    · cases hcollected.session.filled rule hrule hpush hempty
  · obtain ⟨base, hopened, hgathered⟩ := hcollected.media m (List.mem_reverse.mp hm)
    refine section_read_whole hopened hgathered (hwhole.media m ?_)
    rw [hmedia, Option.getD_some, Json.elems]
    exact List.mem_map_of_mem hm

/-- A location that has none of the members that are not printed as they are read. -/
theorem whole_of_none {rules : List Rule} (hrules : ∀ rule ∈ rules, rule ∈ outerRules)
    (h : ∀ key ∈ ["rtcp", "candidates", "ssrcs", "framerate"], (get key m).isNone = true) :
    WholeLocation pf dump rules m := by
  have hnone : ∀ key ∈ ["rtcp", "candidates", "ssrcs", "framerate"], ∀ v, get key m ≠ some v := by
    intro key hkey v hv
    have hget := h key hkey
    rw [hv] at hget
    cases hget
  refine ⟨fun rule _ hpush v hv => ?_, fun rule hrule hpush es hes e _ => ?_,
    fun v hv => absurd hv (hnone _ (by decide) v)⟩
  · have hkey : rule.key = rule.name := if_pos hpush
    have hname : rule.name ≠ "rtcp" := fun hname =>
      hnone "rtcp" (by decide) v (hname ▸ hkey ▸ hv)
    have hnot : ∀ key, key ≠ "" → rule.push ≠ key := fun key hne h => hne (h.symm.trans hpush)
    exact ⟨fun h => absurd h hname, fun h => absurd h hname,
      fun h => absurd h (hnot _ (by decide)), fun h => absurd h (hnot _ (by decide)),
      fun h => absurd h (hnot _ (by decide))⟩
  · have hkey : rule.key = rule.push := if_neg hpush
    have hnot : ∀ key ∈ ["rtcp", "candidates", "ssrcs", "framerate"], rule.push ≠ key :=
      fun key hmem h => hnone key hmem (.arr es) (h ▸ hkey ▸ hes)
    have hname : rule.name ≠ "rtcp" := fun h => by
      have hform := Rule.pushed (outerRules_wellFormed (hrules rule hrule)) hpush
      exact absurd (hform.1.symm.trans h) (by decide)
    exact ⟨fun h => absurd h hname, fun h => absurd h hname,
      fun h => absurd h (hnot _ (by decide)), fun h => absurd h (hnot _ (by decide)),
      fun h => absurd h (hnot _ (by decide))⟩

/-- Lines of both kinds of rules, and one that no rule knows. -/
def sampleText : String := "o=- 1 2 IN IP4 0.0.0.0\r\nm=audio 9 RTP/SAVPF 111\r\na=mid:0\r\n" ++
  "a=rtpmap:0111 opus/48000/2\r\na=fmtp:111 minptime=10\r\na=rtcp-fb:111 transport-cc\r\n" ++
  "a=extmap:1 urn:x\r\na=x\r\n"

def sampleSection : Members := [
  ("ext", .arr [.obj [("uri", .str "urn:x"), ("value", .int 1)]]),
  ("fmtp", .arr [.obj [("config", .str "minptime=10"), ("payload", .int 111)]]),
  ("invalid", .arr [.obj [("value", .str "x")]]),
  ("mid", .str "0"),
  ("payloads", .str "111"),
  ("port", .int 9),
  ("protocol", .str "RTP/SAVPF"),
  ("rtcpFb", .arr [.obj [("payload", .str "111"), ("type", .str "transport-cc")]]),
  ("rtp", .arr [.obj [("codec", .str "opus"), ("encoding", .str "2"), ("payload", .int 111),
    ("rate", .int 48000)]]),
  ("type", .str "audio")]

def sampleSession : Members := [
  ("media", .arr [.obj sampleSection]),
  ("origin", .obj [("address", .str "0.0.0.0"), ("ipVer", .int 4), ("netType", .str "IN"),
    ("sessionId", .uint 1), ("sessionVersion", .uint 2), ("username", .str "-")])]

set_option maxRecDepth 100000 in
theorem sample_parsed : parse lp64 sampleText = .ok (.obj sampleSession) := by
  rw [parse_eq]
  rfl

set_option maxRecDepth 100000 in
theorem sample_plain : plainText sampleText = true := rfl

theorem sample_whole : WholeSession pf dump sampleSession where
  toWholeLocation := whole_of_none (fun _ hrule => hrule) (by decide)
  media := by
    intro m hm
    obtain rfl := Json.obj.inj (List.mem_singleton.mp hm)
    have hown : ∀ rule ∈ outerRules, rule.key ∉ innerRules.map Rule.key →
        (get rule.key sampleSection).isNone = true := by decide
    refine ⟨whole_of_none innerRules_outer (by decide), fun v hv => ?_, fun v hv => ?_,
      fun rule hrule hkey => Option.isNone_iff_eq_none.mp (hown rule hrule hkey)⟩
    · cases hv
    · cases hv

/-- CORRECT: a session is printed as a text that is read as the session, and that is what is printed
    of it again. -/
theorem write_parse_write {session : Members} (h : Session pf dump session) :
    ∃ text left, write dump (.obj session) = .ok (text, left) ∧
      parse pf text = .ok (.obj (completed session)) ∧
      write dump (.obj (completed session)) = .ok (text, left) := by
  obtain ⟨text, left, hwrite, hparse⟩ := store_written h
  obtain ⟨sections, hmedia, -⟩ := h.media
  exact ⟨text, left, hwrite, (parse_eq text).trans hparse,
    (write_completed hmedia).trans hwrite⟩

theorem sample_written : ∃ text left, write (fun _ => "") (.obj sampleSession) = .ok (text, left) ∧
    parse lp64 text = .ok (.obj (completed sampleSession)) ∧
    write (fun _ => "") (.obj (completed sampleSession)) = .ok (text, left) :=
  write_parse_write (session_parsed sample_plain sample_parsed sample_whole)

/-- CORRECT: a text that is read is printed as a text that says the same, and that stays as it is. -/
theorem parse_write_parse {sdp : String} (hplain : plainText sdp = true) {session : Members}
    (hok : parse pf sdp = .ok (.obj session)) (hwhole : WholeSession pf dump session) :
    ∃ text left, write dump (.obj session) = .ok (text, left) ∧
      parse pf text = .ok (.obj (completed session)) ∧
      write dump (.obj (completed session)) = .ok (text, left) := by
  have h := session_parsed hplain hok hwhole
  obtain ⟨text, left, hwrite, hparse⟩ := store_written h
  obtain ⟨sections, hmedia, -⟩ := h.media
  exact ⟨text, left, hwrite, (parse_eq text).trans hparse,
    (write_completed hmedia).trans hwrite⟩

theorem sample_printed : ∃ text left, write (fun _ => "") (.obj sampleSession) = .ok (text, left) ∧
    parse lp64 text = .ok (.obj (completed sampleSession)) ∧
    write (fun _ => "") (.obj (completed sampleSession)) = .ok (text, left) :=
  parse_write_parse sample_plain sample_parsed sample_whole

end MediasoupClient.Sdptransform
