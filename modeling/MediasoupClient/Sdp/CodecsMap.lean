import MediasoupClient.Sdp.Extracted

/-! The map of the codecs, line by line.

        rtpmap p      M[p % 256]  =  a codec without parameters and feedback
        fmtp p        M[p % 256].parameters, if there is such an entry
        rtcp-fb p     M[p % 256].rtcpFeedback, if there is such an entry

    After any lines the map is described by three lists for each key: its entries, and the fmtp and rtcp-fb
    lines that came behind the last of them. -/

namespace MediasoupClient.Sdp
open Lib

/-! ### Lines of a session -/

theorem Typed.text {fields : List (String × FieldType)} {line v : Json} {k : String}
    (h : Typed fields line) (hk : (k, FieldType.text) ∈ fields) (hv : line.find k = some v) :
    ∃ s, v = .str s := by
  obtain ⟨m, rfl, hm⟩ := h
  exact hm _ hk v hv

theorem Typed.number {fields : List (String × FieldType)} {line v : Json} {k : String}
    (h : Typed fields line) (hk : (k, FieldType.number) ∈ fields) (hv : line.find k = some v) :
    ∃ i, integer v = some i := by
  obtain ⟨m, rfl, hm⟩ := h
  obtain ⟨text, rfl⟩ := hm _ hk v hv
  unfold toType
  split_ifs
  · exact ⟨_, rfl⟩
  · exact ⟨_, rfl⟩

/-- The fields of the lines with a key. -/
abbrev rtpFields : List (String × FieldType) :=
  [("payload", .number), ("codec", .text), ("rate", .number), ("encoding", .text)]

abbrev fmtpFields : List (String × FieldType) := [("payload", .number), ("config", .text)]

abbrev fbFields : List (String × FieldType) := [("payload", .text), ("type", .text), ("subtype", .text)]

/-- The lines of a section that is read. -/
structure SectionLines (m : Json) : Prop where
  rtp : (m.find "rtp").isSome = true ∧ ∀ rtp ∈ linesAt "rtp" m, Typed rtpFields rtp
  fmtp : (m.find "fmtp").isSome = true ∧ ∀ fmtp ∈ linesAt "fmtp" m, Typed fmtpFields fmtp
  rtcpFb : ∀ fb ∈ linesAt "rtcpFb" m, Typed fbFields fb

theorem MediaShape.sectionLines {members : Members} (h : MediaShape members) :
    SectionLines (.obj members) := by
  have htyped : ∀ rule ∈ rulesMap 'a', ∀ line ∈ linesAt rule.push (.obj members),
      Typed rule.fields line := by
    intro rule hrule line hline
    unfold linesAt at hline
    change line ∈ ((Lib.get rule.push members).getD .null).elems at hline
    cases hget : Lib.get rule.push members with
    | none => rw [hget] at hline; cases hline
    | some v =>
      rw [hget] at hline
      obtain ⟨items, rfl, hall⟩ := h.lines rule hrule v hget
      exact hall line hline
  refine ⟨⟨h.rtp, htyped ⟨"rtp", rtpmapReg, rtpFields⟩ (by simp [rulesMap])⟩,
    ⟨h.fmtp, htyped ⟨"fmtp", fmtpReg, fmtpFields⟩ (by simp [rulesMap])⟩,
    htyped ⟨"rtcpFb", rtcpFbReg, fbFields⟩ (by simp [rulesMap])⟩

theorem numberOf_some {fields : List (String × FieldType)} {line v : Json} (h : Typed fields line)
    (hk : ("payload", FieldType.number) ∈ fields) (hv : line.find "payload" = some v) :
    ∃ i, numberOf line = some i ∧ v.toUInt 8 = .ok (toKey i) := by
  obtain ⟨i, hi⟩ := h.number hk hv
  exact ⟨i, by rw [numberOf, hv]; exact hi, toUInt_integer hi 8⟩

/-! ### A rtpmap line -/

section
variable {parseParams : String → Except Invalid Members}

theorem blankCodec_isCodec {kind name : String} {rtp payload rate codec : Json}
    (hn : rtp.find "codec" = some (.str name)) (hp : rtp.find "payload" = some payload)
    (hr : rtp.find "rate" = some rate) (hobj : ∃ m, codec = .obj m)
    (hsame : ∀ k ≠ "channels", codec.find k = (blankCodec kind name payload rate).find k)
    (hch : codec.find "channels" = if kind = "audio" then channelsOf rtp else none) :
    IsCodec parseParams (kind, rtp) [] [] codec where
  isObject := hobj
  kind := by
    rw [hsame _ (by decide)]
    simp [blankCodec, Json.object, Json.find, get_put]
  mimeType := ⟨name, hn, by
    rw [hsame _ (by decide)]
    simp [blankCodec, Json.object, Json.find, get_put]⟩
  preferredPayloadType := by
    rw [hsame _ (by decide), hp]
    simp [blankCodec, Json.object, Json.find, get_put]
  clockRate := by
    rw [hsame _ (by decide), hr]
    simp [blankCodec, Json.object, Json.find, get_put]
  channels := hch
  parameters := by
    rw [hsame _ (by decide)]
    simp [blankCodec, Json.object, Json.find, get_put, lastParameters]
  rtcpFeedback := by
    rw [hsame _ (by decide)]
    simp [blankCodec, Json.object, Json.find, get_put, feedbackEntries]

variable (parseParams) in
theorem extractCodec_ok {kind : String} {rtp codec : Json} (h : extractCodec kind rtp = .ok codec) :
    RtpReadable kind rtp ∧ IsCodec parseParams (kind, rtp) [] [] codec := by
  obtain ⟨j, hname, h⟩ := bind_ok.mp h
  obtain ⟨name, hstr, h⟩ := bind_ok.mp h
  obtain ⟨payload, hpayload, h⟩ := bind_ok.mp h
  obtain ⟨rate, hrate, h⟩ := bind_ok.mp h
  have hn := Json.read_ok.mp (lift_ok.mp hname)
  rw [Json.toStr_ok.mp (lift_ok.mp hstr)] at hn
  have hp := Json.read_ok.mp (lift_ok.mp hpayload)
  have hr := Json.read_ok.mp (lift_ok.mp hrate)
  have hreadable : (kind = "audio" → (channelsOf rtp).isSome = true) → RtpReadable kind rtp :=
    fun henc => ⟨by rw [hn]; rfl, by rw [hp]; rfl, by rw [hr]; rfl, henc⟩
  -- the channels are written behind the members of every codec
  have hwritten : ∀ v, channelsOf rtp = some v → kind = "audio" →
      (blankCodec kind name payload rate).write "channels" v = .ok codec →
      RtpReadable kind rtp ∧ IsCodec parseParams (kind, rtp) [] [] codec := by
    intro v hv haudio hw
    refine ⟨hreadable fun _ => by rw [hv]; rfl, blankCodec_isCodec hn hp hr ?_ ?_ ?_⟩
    · cases hw
      exact ⟨_, rfl⟩
    · intro k hk
      rw [Json.find_write hw, if_neg hk]
    · rw [Json.find_write hw, if_pos rfl, if_pos haudio, hv]
  split_ifs at h with haudio
  · cases hfind : rtp.find "encoding" with
    | none =>
      rw [hfind] at h
      exact hwritten (.int 1) (by rw [channelsOf, hfind]) haudio (lift_ok.mp h)
    | some v =>
      rw [hfind] at h
      cases v with
      | str encoding =>
        obtain ⟨i, hi, h⟩ := bind_ok.mp h
        refine hwritten (.int i) ?_ haudio (lift_ok.mp h)
        rw [channelsOf, hfind]
        dsimp only
        rw [hi]
        rfl
      | _ => exact hwritten (.int 1) (by rw [channelsOf, hfind]) haudio (lift_ok.mp h)
  · cases h
    refine ⟨hreadable fun hc => absurd hc haudio, blankCodec_isCodec hn hp hr ⟨_, rfl⟩
      (fun _ _ => rfl) ?_⟩
    rw [if_neg haudio]
    simp [blankCodec, Json.object, Json.find, get_put, Lib.get]

theorem extractCodec_total {kind : String} {rtp : Json} (hrtp : Typed rtpFields rtp)
    (h : RtpReadable kind rtp) : ∃ codec, extractCodec kind rtp = .ok codec := by
  obtain ⟨v, hv⟩ := Option.isSome_iff_exists.mp h.codec
  obtain ⟨name, rfl⟩ := hrtp.text (by simp) hv
  obtain ⟨payload, hp⟩ := Option.isSome_iff_exists.mp h.payload
  obtain ⟨rate, hr⟩ := Option.isSome_iff_exists.mp h.rate
  have hname : (liftM (rtp.read "codec") : Except Invalid Json) = .ok (.str name) :=
    lift_ok.mpr (Json.read_ok.mpr hv)
  have hpayload : (liftM (rtp.read "payload") : Except Invalid Json) = .ok payload :=
    lift_ok.mpr (Json.read_ok.mpr hp)
  have hrate : (liftM (rtp.read "rate") : Except Invalid Json) = .ok rate :=
    lift_ok.mpr (Json.read_ok.mpr hr)
  have hstr : (liftM (Json.str name).toStr : Except Invalid String) = .ok name := rfl
  unfold extractCodec
  rw [hname, ok_bind, hstr, ok_bind, hpayload, ok_bind, hrate, ok_bind]
  dsimp only
  split_ifs with haudio
  · have henc := h.encoding haudio
    unfold channelsOf at henc
    revert henc
    cases rtp.find "encoding" with
    | none => exact fun _ => ⟨_, rfl⟩
    | some v =>
      cases v with
      | str encoding =>
        intro henc
        obtain ⟨i, hi⟩ := Option.isSome_iff_exists.mp ((Option.isSome_map ..).symm.trans henc)
        exact bind_total ⟨i, toOption_eq_some.mp hi⟩ fun _ => ⟨_, rfl⟩
      | _ => exact fun _ => ⟨_, rfl⟩
  · exact ⟨_, rfl⟩

variable (parseParams) in
/-- A rtpmap line puts its codec into the map. -/
theorem addCodec_ok {kind : String} {M M' : StdMap ℕ Json} {rtp : Json} (hrtp : Typed rtpFields rtp)
    (h : addCodec kind M rtp = .ok M') : RtpReadable kind rtp ∧ ∃ i codec, numberOf rtp = some i ∧
      IsCodec parseParams (kind, rtp) [] [] codec ∧ M' = M.insert (toKey i) codec := by
  obtain ⟨codec, hcodec, h⟩ := bind_ok.mp h
  obtain ⟨payload, hpayload, h⟩ := bind_ok.mp h
  obtain ⟨k, hk, h⟩ := bind_ok.mp h
  cases h
  obtain ⟨hreadable, his⟩ := extractCodec_ok parseParams hcodec
  obtain ⟨v, hv⟩ := Option.isSome_iff_exists.mp hreadable.payload
  obtain ⟨i, hi, hkey⟩ := numberOf_some hrtp (by simp) hv
  obtain rfl := Json.readOrNull_ok (lift_ok.mp hpayload)
  rw [his.preferredPayloadType, hv] at hk
  cases hkey.symm.trans (lift_ok.mp hk)
  exact ⟨hreadable, i, codec, hi, his, rfl⟩

theorem addCodec_total {kind : String} {rtp : Json} (hrtp : Typed rtpFields rtp)
    (h : RtpReadable kind rtp) (M : StdMap ℕ Json) : ∃ M', addCodec kind M rtp = .ok M' := by
  obtain ⟨codec, hcodec⟩ := extractCodec_total hrtp h
  obtain ⟨-, his⟩ := extractCodec_ok (fun _ => .ok []) hcodec
  obtain ⟨v, hv⟩ := Option.isSome_iff_exists.mp h.payload
  obtain ⟨i, -, hkey⟩ := numberOf_some hrtp (by simp) hv
  obtain ⟨m, rfl⟩ := his.isObject
  have hpayload : Lib.get "preferredPayloadType" m = some v := his.preferredPayloadType.trans hv
  refine ⟨M.insert (toKey i) (.obj m), bind_ok.mpr ⟨_, hcodec, bind_ok.mpr ⟨v, lift_ok.mpr ?_,
    bind_ok.mpr ⟨toKey i, lift_ok.mpr hkey, rfl⟩⟩⟩⟩
  simp only [Json.readOrNull, hpayload]
  rfl

/-! ### The entries of the map -/

theorem hasKey_of {number : Json → Option ℤ} {line : Json} {i : ℤ} (h : number line = some i)
    (k : ℕ) : hasKey number k line = decide (toKey i = k) := by
  unfold hasKey
  rw [h]
  simp

/-- The last entry of a key. -/
def lastWith (k : ℕ) (entries : List Section) : Option Section :=
  (entries.filter fun e => hasKey numberOf k e.2).getLast?

theorem lastWith_concat (k : ℕ) (entries : List Section) (e : Section) :
    lastWith k (entries ++ [e]) = if hasKey numberOf k e.2 then some e else lastWith k entries := by
  unfold lastWith
  rw [List.filter_append]
  split_ifs with hk
  · simp only [List.filter_cons, hk, if_true, List.filter_nil, List.getLast?_concat]
  · simp only [List.filter_cons, hk, if_false, List.filter_nil, List.append_nil, Bool.false_eq_true]

theorem lastWith_eq_none {k : ℕ} {entries : List Section} :
    lastWith k entries = none ↔ ¬Known entries k := by
  unfold lastWith Known
  rw [List.getLast?_eq_none_iff, List.filter_eq_nil_iff]
  simp only [not_exists, not_and]

/-- What is stored for a key is the codec of its last entry. -/
def EntryIs (parseParams : String → Except Invalid Members) (fmtps fbs : List Json)
    (stored : Option Json) : Option Section → Prop
  | none => stored = none
  | some e => ∃ codec, stored = some codec ∧ IsCodec parseParams e fmtps fbs codec

/-- The map holds, for each key, the codec of the last entry with the lines that came behind it. -/
def Described (parseParams : String → Except Invalid Members) (entries : List Section)
    (fmtps fbs : ℕ → List Json) (M : StdMap ℕ Json) : Prop :=
  ∀ k, EntryIs parseParams (fmtps k) (fbs k) (M.get k) (lastWith k entries)

variable {entries : List Section} {fmtps fbs : ℕ → List Json} {M M' : StdMap ℕ Json}

theorem Described.get_none (h : Described parseParams entries fmtps fbs M) {k : ℕ} :
    M.get k = none ↔ ¬Known entries k := by
  rw [← lastWith_eq_none]
  have hk := h k
  cases hlast : lastWith k entries with
  | none =>
    rw [hlast] at hk
    exact iff_of_true hk rfl
  | some e =>
    rw [hlast] at hk
    obtain ⟨codec, hcodec, -⟩ := hk
    rw [hcodec]
    exact iff_of_false (by simp) (by simp)

/-- What is stored for a key is the codec of its last entry. -/
theorem Described.stored (h : Described parseParams entries fmtps fbs M) {k : ℕ} {codec : Json}
    (hstored : M.get k = some codec) : Known entries k ∧ ∃ e, lastWith k entries = some e ∧
      IsCodec parseParams e (fmtps k) (fbs k) codec := by
  have hentry := h k
  cases hlast : lastWith k entries with
  | none =>
    rw [hlast, hstored] at hentry
    cases hentry
  | some e =>
    rw [hlast] at hentry
    obtain ⟨_, heq, his⟩ := hentry
    cases hstored.symm.trans heq
    refine ⟨?_, e, rfl, his⟩
    by_contra hno
    cases hlast.symm.trans (lastWith_eq_none.mpr hno)

/-- A rtpmap line starts the entry of its key afresh. -/
theorem Described.rtp {kind : String} {rtp : Json} (h : Described parseParams entries fmtps fbs M)
    (hrtp : Typed rtpFields rtp) (hrun : addCodec kind M rtp = .ok M') :
    Described parseParams (entries ++ [(kind, rtp)])
      (fun k => if hasKey numberOf k rtp then [] else fmtps k)
      (fun k => if hasKey numberOf k rtp then [] else fbs k) M' := by
  obtain ⟨-, i, codec, hi, his, rfl⟩ := addCodec_ok parseParams hrtp hrun
  intro k
  dsimp only
  rw [lastWith_concat, StdMap.get_insert, hasKey_of hi k]
  by_cases hk : toKey i = k
  · simp only [hk, decide_true, if_true]
    exact ⟨codec, rfl, his⟩
  · simp only [hk, decide_false, Bool.false_eq_true, if_false, Ne.symm hk]
    exact h k

/-- An entry that is stored under its own key again. -/
theorem Described.update {k₀ : ℕ} {codec : Json} {e : Section} {fmtps' fbs' : ℕ → List Json}
    (h : Described parseParams entries fmtps fbs M) (hlast : lastWith k₀ entries = some e)
    (hsame : ∀ k ≠ k₀, fmtps' k = fmtps k ∧ fbs' k = fbs k)
    (his : IsCodec parseParams e (fmtps' k₀) (fbs' k₀) codec) :
    Described parseParams entries fmtps' fbs' (M.insert k₀ codec) := by
  intro k
  rw [StdMap.get_insert]
  by_cases hk : k = k₀
  · subst hk
    rw [if_pos rfl, hlast]
    exact ⟨codec, rfl, his⟩
  · rw [if_neg hk, (hsame k hk).1, (hsame k hk).2]
    exact h k

/-- A line without an entry changes nothing. -/
theorem Described.skip {fmtps' fbs' : ℕ → List Json} (h : Described parseParams entries fmtps fbs M)
    (hsame : ∀ k, Known entries k → fmtps' k = fmtps k ∧ fbs' k = fbs k) :
    Described parseParams entries fmtps' fbs' M := by
  intro k
  have hk := h k
  cases hlast : lastWith k entries with
  | none =>
    rw [hlast] at hk
    exact hk
  | some e =>
    have hknown : Known entries k := by
      by_contra hno
      rw [lastWith_eq_none.mpr hno] at hlast
      cases hlast
    rw [(hsame k hknown).1, (hsame k hknown).2, ← hlast]
    exact hk

theorem lastParameters_concat (fmtps : List Json) (fmtp : Json) :
    lastParameters parseParams (fmtps ++ [fmtp]) = (parametersAt parseParams fmtp).toOption := by
  rw [lastParameters, List.getLast?_concat]

/-- The lines of a key with one line more. -/
theorem append_filter_of_key {number : Json → Option ℤ} {line : Json} {i : ℤ}
    (h : number line = some i) (lines : List Json) (k : ℕ) :
    lines ++ [line].filter (hasKey number k) = if k = toKey i then lines ++ [line] else lines := by
  have hkey := hasKey_of h k
  split_ifs with hk
  · rw [List.filter_cons_of_pos (by rw [hkey, hk, decide_eq_true rfl]), List.filter_nil]
  · rw [List.filter_cons_of_neg (by simpa [hkey] using Ne.symm hk), List.filter_nil, List.append_nil]

/-- A line without an entry is a line of no entry's key. -/
theorem append_filter_of_unknown {number : Json → Option ℤ} {line : Json} {i : ℤ}
    (h : number line = some i) (hno : ¬Known entries (toKey i)) {k : ℕ} (hknown : Known entries k)
    (lines : List Json) : lines ++ [line].filter (hasKey number k) = lines := by
  have hk : k ≠ toKey i := by
    rintro rfl
    exact hno hknown
  rw [append_filter_of_key h, if_neg hk]

/-- A codec with other parameters or feedback, and all else as it was. -/
theorem IsCodec.of_find {e : Section} {fs fs' bs bs' : List Json} {codec codec' : Json}
    (h : IsCodec parseParams e fs bs codec) (hobj : ∃ m, codec' = .obj m)
    (hsame : ∀ k, k ≠ "parameters" → k ≠ "rtcpFeedback" → codec'.find k = codec.find k)
    (hparams : codec'.find "parameters" = lastParameters parseParams fs')
    (hfb : codec'.find "rtcpFeedback" = some (.arr (feedbackEntries bs'))) :
    IsCodec parseParams e fs' bs' codec' where
  isObject := hobj
  kind := (hsame _ (by decide) (by decide)).trans h.kind
  mimeType := by
    obtain ⟨name, hname, hmime⟩ := h.mimeType
    exact ⟨name, hname, (hsame _ (by decide) (by decide)).trans hmime⟩
  preferredPayloadType := (hsame _ (by decide) (by decide)).trans h.preferredPayloadType
  clockRate := (hsame _ (by decide) (by decide)).trans h.clockRate
  channels := (hsame _ (by decide) (by decide)).trans h.channels
  parameters := hparams
  rtcpFeedback := hfb

/-- What is written into a codec leaves an object. -/
theorem IsCodec.write_isObject {e : Section} {fs bs : List Json} {codec codec' v : Json} {k : String}
    (h : IsCodec parseParams e fs bs codec) (hw : codec.write k v = .ok codec') :
    ∃ m, codec' = .obj m := by
  obtain ⟨m, rfl⟩ := h.isObject
  cases hw
  exact ⟨_, rfl⟩

/-- Another value of `parameters`. -/
theorem IsCodec.withParameters {e : Section} {fs fs' bs : List Json} {codec codec' parameters : Json}
    (h : IsCodec parseParams e fs bs codec) (hw : codec.write "parameters" parameters = .ok codec')
    (hlast : lastParameters parseParams fs' = some parameters) :
    IsCodec parseParams e fs' bs codec' := by
  have hfind := Json.find_write hw
  refine h.of_find (h.write_isObject hw) (fun k hk _ => ?_) ?_ ?_
  · rw [hfind, if_neg hk]
  · rw [hfind, if_pos rfl, hlast]
  · rw [hfind, if_neg (by decide), h.rtcpFeedback]

/-- One entry of `rtcpFeedback` more. -/
theorem IsCodec.withFeedback {e : Section} {fs bs : List Json} {codec codec' type fb : Json}
    (h : IsCodec parseParams e fs bs codec) (htype : fb.find "type" = some type)
    (hw : codec.write "rtcpFeedback" (.arr (feedbackEntries bs ++ [feedbackEntry type fb])) =
      .ok codec') : IsCodec parseParams e fs (bs ++ [fb]) codec' := by
  have hfind := Json.find_write hw
  refine h.of_find (h.write_isObject hw) (fun k _ hk => ?_) ?_ ?_
  · rw [hfind, if_neg hk]
  · rw [hfind, if_neg (by decide), h.parameters]
  · rw [hfind, if_pos rfl, feedbackEntries, feedbackEntries, List.map_append, List.map_singleton,
      htype]
    rfl

/-! ### A fmtp line -/

theorem parametersAt_eq {fmtp : Json} {config : String} {members : Members}
    (hc : fmtp.find "config" = some (.str config)) (hmembers : parseParams config = .ok members) :
    parametersAt parseParams fmtp = withProfileId members := by
  have hread : (liftM (fmtp.read "config") : Except Invalid Json) = .ok (.str config) :=
    lift_ok.mpr (Json.read_ok.mpr hc)
  have hstr : (liftM (Json.str config).toStr : Except Invalid String) = .ok config := rfl
  unfold parametersAt
  rw [hread, ok_bind, hstr, ok_bind, hmembers, ok_bind]

theorem addParameters_ok {fmtp : Json} (hfmtp : Typed fmtpFields fmtp)
    (h : Described parseParams entries fmtps fbs M)
    (hrun : addParameters parseParams M fmtp = .ok M') :
    FmtpReadable parseParams entries fmtp ∧ Described parseParams entries
      (fun k => fmtps k ++ [fmtp].filter (hasKey numberOf k)) fbs M' := by
  obtain ⟨j, hj, hrun⟩ := bind_ok.mp hrun
  obtain ⟨config, hconfig, hrun⟩ := bind_ok.mp hrun
  obtain ⟨members, hmembers, hrun⟩ := bind_ok.mp hrun
  obtain ⟨payload, hpayload, hrun⟩ := bind_ok.mp hrun
  obtain ⟨k₀, hk₀, hrun⟩ := bind_ok.mp hrun
  have hp := Json.read_ok.mp (lift_ok.mp hpayload)
  obtain ⟨i, hi, hkey⟩ := numberOf_some hfmtp (by simp) hp
  cases hkey.symm.trans (lift_ok.mp hk₀)
  have hc := Json.read_ok.mp (lift_ok.mp hj)
  rw [Json.toStr_ok.mp (lift_ok.mp hconfig)] at hc
  have hline := parametersAt_eq hc hmembers
  have hreadable : (Known entries (toKey i) → ∃ parameters, withProfileId members = .ok parameters) →
      FmtpReadable parseParams entries fmtp := by
    intro hid
    refine ⟨⟨config, members, hc, hmembers⟩, by rw [hi]; rfl, fun k hk hknown => ?_⟩
    rw [hasKey_of hi, decide_eq_true_eq] at hk
    rw [hline]
    exact hid (hk ▸ hknown)
  cases hstored : M.get (toKey i) with
  | none =>
    simp only [hstored] at hrun
    cases hrun
    have hno := h.get_none.mp hstored
    exact ⟨hreadable fun hknown => absurd hknown hno,
      h.skip fun k hknown => ⟨append_filter_of_unknown hi hno hknown _, rfl⟩⟩
  | some codec =>
    simp only [hstored] at hrun
    obtain ⟨parameters, hparams, hrun⟩ := bind_ok.mp hrun
    obtain ⟨codec', hcodec', hrun⟩ := bind_ok.mp hrun
    cases hrun
    obtain ⟨-, e, hlast, his⟩ := h.stored hstored
    refine ⟨hreadable fun _ => ⟨parameters, hparams⟩, h.update hlast (fun k hk => ⟨?_, rfl⟩) ?_⟩
    · rw [append_filter_of_key hi, if_neg hk]
    · rw [append_filter_of_key hi, if_pos rfl]
      refine his.withParameters (lift_ok.mp hcodec') ?_
      rw [lastParameters_concat, hline, hparams]
      rfl

theorem addParameters_total {fmtp : Json} (hfmtp : Typed fmtpFields fmtp)
    (h : Described parseParams entries fmtps fbs M) (hr : FmtpReadable parseParams entries fmtp) :
    ∃ M', addParameters parseParams M fmtp = .ok M' := by
  obtain ⟨config, members, hc, hmembers⟩ := hr.config
  obtain ⟨i, hi⟩ := Option.isSome_iff_exists.mp hr.payload
  obtain ⟨payload, hp, -⟩ := Option.bind_eq_some_iff.mp hi
  obtain ⟨i', hi', hkey⟩ := numberOf_some hfmtp (by simp) hp
  cases hi.symm.trans hi'
  have hread : (liftM (fmtp.read "config") : Except Invalid Json) = .ok (.str config) :=
    lift_ok.mpr (Json.read_ok.mpr hc)
  have hstr : (liftM (Json.str config).toStr : Except Invalid String) = .ok config := rfl
  have hpayload : (liftM (fmtp.read "payload") : Except Invalid Json) = .ok payload :=
    lift_ok.mpr (Json.read_ok.mpr hp)
  have hk₀ : (liftM (payload.toUInt 8) : Except Invalid ℕ) = .ok (toKey i) := lift_ok.mpr hkey
  unfold addParameters
  rw [hread, ok_bind, hstr, ok_bind, hmembers, ok_bind, hpayload, ok_bind, hk₀, ok_bind]
  cases hstored : M.get (toKey i) with
  | none => exact ⟨M, rfl⟩
  | some codec =>
    obtain ⟨hknown, e, -, his⟩ := h.stored hstored
    obtain ⟨parameters, hparams⟩ := hr.profileId _ (by rw [hasKey_of hi, decide_eq_true rfl]) hknown
    rw [parametersAt_eq hc hmembers] at hparams
    obtain ⟨m, rfl⟩ := his.isObject
    exact ⟨_, bind_ok.mpr ⟨parameters, hparams, bind_ok.mpr ⟨_, lift_ok.mpr rfl, rfl⟩⟩⟩

/-! ### A rtcp-fb line -/

theorem fbNumberOf_eq {fb : Json} {payload : String} (h : fb.find "payload" = some (.str payload)) :
    fbNumberOf fb = (stoi payload).toOption := by
  rw [fbNumberOf, h]

theorem addFeedback_ok {fb : Json} (h : Described parseParams entries fmtps fbs M)
    (hrun : addFeedback M fb = .ok M') :
    FbReadable entries fb ∧ Described parseParams entries fmtps
      (fun k => fbs k ++ [fb].filter (hasKey fbNumberOf k)) M' := by
  obtain ⟨j, hj, hrun⟩ := bind_ok.mp hrun
  obtain ⟨payload, hpayload, hrun⟩ := bind_ok.mp hrun
  obtain ⟨i, hstoi, hrun⟩ := bind_ok.mp hrun
  have hp := Json.read_ok.mp (lift_ok.mp hj)
  rw [Json.toStr_ok.mp (lift_ok.mp hpayload)] at hp
  have hi : fbNumberOf fb = some i := by
    rw [fbNumberOf_eq hp, hstoi]
    rfl
  have hreadable : (Known entries (toKey i) → (fb.find "type").isSome = true) →
      FbReadable entries fb := by
    intro htype
    refine ⟨by rw [hi]; rfl, fun k hk hknown => ?_⟩
    rw [hasKey_of hi, decide_eq_true_eq] at hk
    exact htype (hk ▸ hknown)
  cases hstored : M.get (toKey i) with
  | none =>
    simp only [hstored] at hrun
    cases hrun
    have hno := h.get_none.mp hstored
    exact ⟨hreadable fun hknown => absurd hknown hno,
      h.skip fun k hknown => ⟨rfl, append_filter_of_unknown hi hno hknown _⟩⟩
  | some codec =>
    simp only [hstored] at hrun
    obtain ⟨type, htype, hrun⟩ := bind_ok.mp hrun
    obtain ⟨feedbacks, hfeedbacks, hrun⟩ := bind_ok.mp hrun
    obtain ⟨codec', hcodec', hrun⟩ := bind_ok.mp hrun
    cases hrun
    have ht := Json.read_ok.mp (lift_ok.mp htype)
    obtain ⟨-, e, hlast, his⟩ := h.stored hstored
    rw [his.rtcpFeedback] at hfeedbacks
    cases lift_ok.mp hfeedbacks
    refine ⟨hreadable fun _ => by rw [ht]; rfl, h.update hlast (fun k hk => ⟨rfl, ?_⟩) ?_⟩
    · rw [append_filter_of_key hi, if_neg hk]
    · rw [append_filter_of_key hi, if_pos rfl]
      exact his.withFeedback ht (lift_ok.mp hcodec')

theorem addFeedback_total {fb : Json} (h : Described parseParams entries fmtps fbs M)
    (hr : FbReadable entries fb) : ∃ M', addFeedback M fb = .ok M' := by
  obtain ⟨i, hi⟩ := Option.isSome_iff_exists.mp hr.payload
  obtain ⟨payload, hp⟩ : ∃ payload, fb.find "payload" = some (.str payload) := by
    unfold fbNumberOf at hi
    split at hi
    · exact ⟨_, by assumption⟩
    · cases hi
  have hstoi : stoi payload = .ok i := toOption_eq_some.mp ((fbNumberOf_eq hp).symm.trans hi)
  have hread : (liftM (fb.read "payload") : Except Invalid Json) = .ok (.str payload) :=
    lift_ok.mpr (Json.read_ok.mpr hp)
  have hstr : (liftM (Json.str payload).toStr : Except Invalid String) = .ok payload := rfl
  unfold addFeedback
  rw [hread, ok_bind, hstr, ok_bind, hstoi, ok_bind]
  dsimp only
  cases hstored : M.get (toKey i) with
  | none => exact ⟨M, rfl⟩
  | some codec =>
    obtain ⟨hknown, e, -, his⟩ := h.stored hstored
    obtain ⟨type, ht⟩ := Option.isSome_iff_exists.mp
      (hr.type _ (by rw [hasKey_of hi, decide_eq_true rfl]) hknown)
    obtain ⟨m, rfl⟩ := his.isObject
    refine ⟨_, bind_ok.mpr ⟨type, lift_ok.mpr (Json.read_ok.mpr ht),
      bind_ok.mpr ⟨feedbackEntries (fbs (toKey i)), lift_ok.mpr ?_,
        bind_ok.mpr ⟨_, lift_ok.mpr rfl, rfl⟩⟩⟩⟩
    rw [his.rtcpFeedback]
    rfl

/-! ### A section -/

theorem codecs_loop (kind : String) {rtps : List Json} (hrtps : ∀ rtp ∈ rtps, Typed rtpFields rtp)
    (h : Described parseParams entries fmtps fbs M) :
    ((∃ M', rtps.foldlM (addCodec kind) M = .ok M') ↔ ∀ rtp ∈ rtps, RtpReadable kind rtp) ∧
      ∀ M', rtps.foldlM (addCodec kind) M = .ok M' →
        Described parseParams (entries ++ rtps.map fun rtp => (kind, rtp))
          (fun k => if rtps.any (hasKey numberOf k) then [] else fmtps k)
          (fun k => if rtps.any (hasKey numberOf k) then [] else fbs k) M' := by
  have hloop := foldlM_along (f := addCodec kind) (T := Typed rtpFields)
    (C := fun _ rtp => RtpReadable kind rtp)
    (D := fun done M => Described parseParams (entries ++ done.map fun rtp => (kind, rtp))
      (fun k => if done.any (hasKey numberOf k) then [] else fmtps k)
      (fun k => if done.any (hasKey numberOf k) then [] else fbs k) M)
    (fun {done rtp M} hrtp hM => by
      refine ⟨⟨?_, fun hr => addCodec_total hrtp hr M⟩, fun M' hrun => ?_⟩
      · rintro ⟨M', hrun⟩
        exact (addCodec_ok parseParams hrtp hrun).1
      · have hnext := hM.rtp hrtp hrun
        rw [List.append_assoc] at hnext
        rw [List.map_append, List.map_singleton]
        have heq : ∀ (lines : ℕ → List Json), (fun k => if (done ++ [rtp]).any (hasKey numberOf k)
            then [] else lines k) = fun k => if hasKey numberOf k rtp then []
              else if done.any (hasKey numberOf k) then [] else lines k := by
          intro lines
          funext k
          rw [List.any_append, List.any_cons, List.any_nil, Bool.or_false]
          by_cases hk : hasKey numberOf k rtp = true
          · simp [hk]
          · simp [hk]
        rw [heq, heq]
        exact hnext)
    [] rtps hrtps (by simpa using h)
  rwa [along_iff_forall, List.nil_append] at hloop

theorem parameters_loop {lines : List Json} (hlines : ∀ fmtp ∈ lines, Typed fmtpFields fmtp)
    (h : Described parseParams entries fmtps fbs M) :
    ((∃ M', lines.foldlM (addParameters parseParams) M = .ok M') ↔
      ∀ fmtp ∈ lines, FmtpReadable parseParams entries fmtp) ∧
      ∀ M', lines.foldlM (addParameters parseParams) M = .ok M' → Described parseParams entries
        (fun k => fmtps k ++ lines.filter (hasKey numberOf k)) fbs M' := by
  have hloop := foldlM_along (f := addParameters parseParams) (T := Typed fmtpFields)
    (C := fun _ fmtp => FmtpReadable parseParams entries fmtp)
    (D := fun done M => Described parseParams entries
      (fun k => fmtps k ++ done.filter (hasKey numberOf k)) fbs M)
    (fun {done fmtp M} hfmtp hM => by
      refine ⟨⟨?_, fun hr => addParameters_total hfmtp hM hr⟩, fun M' hrun => ?_⟩
      · rintro ⟨M', hrun⟩
        exact (addParameters_ok hfmtp hM hrun).1
      · have hnext := (addParameters_ok hfmtp hM hrun).2
        simp only [List.append_assoc, ← List.filter_append] at hnext
        exact hnext)
    [] lines hlines (by simpa using h)
  rwa [along_iff_forall, List.nil_append] at hloop

theorem feedback_loop (lines : List Json) (h : Described parseParams entries fmtps fbs M) :
    ((∃ M', lines.foldlM addFeedback M = .ok M') ↔ ∀ fb ∈ lines, FbReadable entries fb) ∧
      ∀ M', lines.foldlM addFeedback M = .ok M' → Described parseParams entries fmtps
        (fun k => fbs k ++ lines.filter (hasKey fbNumberOf k)) M' := by
  have hloop := foldlM_along (f := addFeedback) (T := fun _ => True)
    (C := fun _ fb => FbReadable entries fb)
    (D := fun done M => Described parseParams entries fmtps
      (fun k => fbs k ++ done.filter (hasKey fbNumberOf k)) M)
    (fun {done fb M} _ hM => by
      refine ⟨⟨?_, fun hr => addFeedback_total hM hr⟩, fun M' hrun => ?_⟩
      · rintro ⟨M', hrun⟩
        exact (addFeedback_ok hM hrun).1
      · have hnext := (addFeedback_ok hM hrun).2
        simp only [List.append_assoc, ← List.filter_append] at hnext
        exact hnext)
    [] lines (fun _ _ => trivial) (by simpa using h)
  rwa [along_iff_forall, List.nil_append] at hloop

theorem extractExtension_returns (kind : String) {ext : Json} :
    (∃ j, extractExtension kind ext = .ok j) ↔
      (ext.find "uri").isSome = true ∧ (ext.find "value").isSome = true := by
  constructor
  · rintro ⟨j, h⟩
    obtain ⟨uri, huri, h⟩ := bind_ok.mp h
    obtain ⟨value, hvalue, -⟩ := bind_ok.mp h
    rw [Json.read_ok.mp (lift_ok.mp huri), Json.read_ok.mp (lift_ok.mp hvalue)]
    exact ⟨rfl, rfl⟩
  · rintro ⟨huri, hvalue⟩
    obtain ⟨uri, hu⟩ := Option.isSome_iff_exists.mp huri
    obtain ⟨value, hv⟩ := Option.isSome_iff_exists.mp hvalue
    exact ⟨_, bind_ok.mpr ⟨uri, lift_ok.mpr (Json.read_ok.mpr hu),
      bind_ok.mpr ⟨value, lift_ok.mpr (Json.read_ok.mpr hv), rfl⟩⟩⟩

/-- The lines of a member that is read. -/
theorem read_linesAt {m v : Json} {key : String}
    (h : (liftM (m.read key) : Except Invalid Json) = .ok v) :
    (m.find key).isSome = true ∧ v.elems = linesAt key m := by
  have hv := Json.read_ok.mp (lift_ok.mp h)
  rw [linesAt, hv]
  exact ⟨rfl, rfl⟩

theorem linesAt_read {m : Json} {key : String} (h : (m.find key).isSome = true) :
    ∃ v, (liftM (m.read key) : Except Invalid Json) = .ok v ∧ v.elems = linesAt key m := by
  obtain ⟨v, hv⟩ := Option.isSome_iff_exists.mp h
  have hread : (liftM (m.read key) : Except Invalid Json) = .ok v := lift_ok.mpr (Json.read_ok.mpr hv)
  exact ⟨v, hread, (read_linesAt hread).2⟩

theorem rtpEntries_concat (used : List Section) (s : Section) :
    rtpEntries (used ++ [s]) = rtpEntries used ++ (linesAt "rtp" s.2).map fun rtp => (s.1, rtp) := by
  rw [rtpEntries, List.flatMap_append, List.flatMap_singleton]
  rfl

theorem kept_concat (sort : String) (number : Json → Option ℤ) (k : ℕ) (used : List Section)
    (s : Section) : kept sort number k (used ++ [s]) =
      (if declares k s then [] else kept sort number k used) ++
        (linesAt sort s.2).filter (hasKey number k) := by
  rw [kept, List.foldl_concat]
  rfl

/-- What the map holds after these sections. -/
def Collected (parseParams : String → Except Invalid Members) (used : List Section)
    (st : Extraction) : Prop :=
  Described parseParams (rtpEntries used) (fun k => kept "fmtp" numberOf k used)
    (fun k => kept "rtcpFb" fbNumberOf k used) st.codecsMap

theorem extractSection_collects {used : List Section} {s : Section} {st : Extraction}
    (hs : SectionLines s.2) (h : Collected parseParams used st) :
    ((∃ st', extractSection parseParams st s.1 s.2 = .ok st') ↔
      SectionReadable parseParams (rtpEntries (used ++ [s])) s) ∧
      ∀ st', extractSection parseParams st s.1 s.2 = .ok st' →
        Collected parseParams (used ++ [s]) st' := by
  obtain ⟨hcodecs, hcodecs'⟩ := codecs_loop s.1 hs.rtp.2 h
  rw [← rtpEntries_concat] at hcodecs'
  have hmain : ∀ st', extractSection parseParams st s.1 s.2 = .ok st' →
      SectionReadable parseParams (rtpEntries (used ++ [s])) s ∧
        Collected parseParams (used ++ [s]) st' := by
    intro st' hrun
    obtain ⟨rtps, hrtps, hrun⟩ := bind_ok.mp hrun
    obtain ⟨M₁, hM₁, hrun⟩ := bind_ok.mp hrun
    obtain ⟨lines, hlines, hrun⟩ := bind_ok.mp hrun
    obtain ⟨M₂, hM₂, hrun⟩ := bind_ok.mp hrun
    obtain ⟨fbs, hfbs, hrun⟩ := bind_ok.mp hrun
    obtain ⟨M₃, hM₃, hrun⟩ := bind_ok.mp hrun
    obtain ⟨exts, hexts, hrun⟩ := bind_ok.mp hrun
    obtain ⟨headers, hheaders, hrun⟩ := bind_ok.mp hrun
    cases hrun
    rw [(read_linesAt hrtps).2] at hM₁
    rw [(read_linesAt hlines).2] at hM₂
    rw [(read_linesAt hfbs).2] at hM₃
    rw [(read_linesAt hexts).2] at hheaders
    have h₁ := hcodecs' M₁ hM₁
    obtain ⟨hparams, hparams'⟩ := parameters_loop hs.fmtp.2 h₁
    have h₂ := hparams' M₂ hM₂
    obtain ⟨hfeedback, hfeedback'⟩ := feedback_loop (linesAt "rtcpFb" s.2) h₂
    have h₃ := hfeedback' M₃ hM₃
    refine ⟨⟨hcodecs.mp ⟨M₁, hM₁⟩, hparams.mp ⟨M₂, hM₂⟩,
      ⟨(read_linesAt hfbs).1, hfeedback.mp ⟨M₃, hM₃⟩⟩, (read_linesAt hexts).1, ?_⟩, ?_⟩
    · intro ext hext
      exact (extractExtension_returns s.1).mp (mapM_returns.mp ⟨headers, hheaders⟩ ext hext)
    · unfold Collected
      simp only [kept_concat]
      exact h₃
  refine ⟨⟨?_, fun hr => ?_⟩, fun st' hrun => (hmain st' hrun).2⟩
  · rintro ⟨st', hrun⟩
    exact (hmain st' hrun).1
  · obtain ⟨M₁, hM₁⟩ := hcodecs.mpr hr.rtp
    obtain ⟨hparams, hparams'⟩ := parameters_loop hs.fmtp.2 (hcodecs' M₁ hM₁)
    obtain ⟨M₂, hM₂⟩ := hparams.mpr hr.fmtp
    obtain ⟨hfeedback, -⟩ := feedback_loop (linesAt "rtcpFb" s.2) (hparams' M₂ hM₂)
    obtain ⟨M₃, hM₃⟩ := hfeedback.mpr hr.rtcpFb.2
    obtain ⟨headers, hheaders⟩ := mapM_returns.mpr fun ext hext =>
      (extractExtension_returns s.1).mpr (hr.ext.2 ext hext)
    obtain ⟨rtps, hrtps, heq₁⟩ := linesAt_read hs.rtp.1
    obtain ⟨lines, hlines, heq₂⟩ := linesAt_read hs.fmtp.1
    obtain ⟨fbs, hfbs, heq₃⟩ := linesAt_read hr.rtcpFb.1
    obtain ⟨exts, hexts, heq₄⟩ := linesAt_read hr.ext.1
    rw [← heq₁] at hM₁
    rw [← heq₂] at hM₂
    rw [← heq₃] at hM₃
    rw [← heq₄] at hheaders
    exact ⟨_, bind_ok.mpr ⟨rtps, hrtps, bind_ok.mpr ⟨M₁, hM₁, bind_ok.mpr ⟨lines, hlines,
      bind_ok.mpr ⟨M₂, hM₂, bind_ok.mpr ⟨fbs, hfbs, bind_ok.mpr ⟨M₃, hM₃,
        bind_ok.mpr ⟨exts, hexts, bind_ok.mpr ⟨headers, hheaders, rfl⟩⟩⟩⟩⟩⟩⟩⟩⟩

/-! ### The loop over the sections -/

theorem kindOf_read {m : Json} {kind : String} : kindOf m = some kind ↔
    ∃ j, (liftM (m.read "type") : Except Invalid Json) = .ok j ∧
      (liftM j.toStr : Except Invalid String) = .ok kind := by
  unfold kindOf
  constructor
  · intro h
    split at h
    · rename_i kind' hfind
      cases h
      exact ⟨_, lift_ok.mpr (Json.read_ok.mpr hfind), rfl⟩
    · cases h
  · rintro ⟨j, hj, hstr⟩
    have hfind := Json.read_ok.mp (lift_ok.mp hj)
    rw [Json.toStr_ok.mp (lift_ok.mp hstr)] at hfind
    rw [hfind]

/-- The flags of the sections that have been found. -/
def KindsSeen (st : Extraction) (seen : List String) : Prop :=
  ("audio" ∈ seen ↔ st.gotAudio = true) ∧ ("video" ∈ seen ↔ st.gotVideo = true)

theorem extractSection_flags {st st' : Extraction} {kind : String} {m : Json}
    (h : extractSection parseParams st kind m = .ok st') :
    st'.gotAudio = st.gotAudio ∧ st'.gotVideo = st.gotVideo := by
  obtain ⟨_, -, h⟩ := bind_ok.mp h
  obtain ⟨_, -, h⟩ := bind_ok.mp h
  obtain ⟨_, -, h⟩ := bind_ok.mp h
  obtain ⟨_, -, h⟩ := bind_ok.mp h
  obtain ⟨_, -, h⟩ := bind_ok.mp h
  obtain ⟨_, -, h⟩ := bind_ok.mp h
  obtain ⟨_, -, h⟩ := bind_ok.mp h
  obtain ⟨_, -, h⟩ := bind_ok.mp h
  cases h
  exact ⟨rfl, rfl⟩

variable (parseParams) in
/-- A section counts if its kind has not been seen, and is skipped otherwise. -/
theorem extractMedia_cases {st : Extraction} {seen : List String} {m : Json} {kind : String}
    (hkind : kindOf m = some kind) (hseen : KindsSeen st seen) :
    (kind ∈ ["audio", "video"] ∧ kind ∉ seen ∧ ∃ st₁ : Extraction,
      extractMedia parseParams st m = extractSection parseParams st₁ kind m ∧
      st₁.codecsMap = st.codecsMap ∧ KindsSeen st₁ (kind :: seen)) ∨
    (¬(kind ∈ ["audio", "video"] ∧ kind ∉ seen) ∧ extractMedia parseParams st m = .ok st) := by
  obtain ⟨j, hj, hstr⟩ := kindOf_read.mp hkind
  obtain ⟨haudio, hvideo⟩ := hseen
  unfold extractMedia
  rw [hj, ok_bind, hstr, ok_bind]
  by_cases hka : kind = "audio"
  · subst hka
    rw [if_pos rfl]
    by_cases hgot : st.gotAudio = true
    · rw [if_pos hgot]
      exact Or.inr ⟨fun hc => hc.2 (haudio.mpr hgot), rfl⟩
    · rw [if_neg hgot]
      refine Or.inl ⟨by simp, fun hc => hgot (haudio.mp hc), _, rfl, rfl, ?_, ?_⟩
      · simp
      · simp [hvideo]
  · rw [if_neg hka]
    by_cases hkv : kind = "video"
    · subst hkv
      rw [if_pos rfl]
      by_cases hgot : st.gotVideo = true
      · rw [if_pos hgot]
        exact Or.inr ⟨fun hc => hc.2 (hvideo.mpr hgot), rfl⟩
      · rw [if_neg hgot]
        refine Or.inl ⟨by simp, fun hc => hgot (hvideo.mp hc), _, rfl, rfl, ?_, ?_⟩
        · simp [haudio]
        · simp
    · rw [if_neg hkv]
      exact Or.inr ⟨fun hc => by simp [hka, hkv] at hc, rfl⟩

/-- All sections have a type, and those that count can be read. -/
theorem extract_loop {media : List Json} (hmedia : ∀ m ∈ media, SectionLines m)
    {used : List Section} {seen : List String} {st : Extraction} (hseen : KindsSeen st seen)
    (h : Collected parseParams used st) :
    ((∃ st', media.foldlM (extractMedia parseParams) st = .ok st') ↔
      (∀ m ∈ media, (kindOf m).isSome = true) ∧
        Along (fun done s => SectionReadable parseParams (rtpEntries (done ++ [s])) s) used
          (usedSections seen media)) ∧
      ∀ st', media.foldlM (extractMedia parseParams) st = .ok st' →
        Collected parseParams (used ++ usedSections seen media) st' := by
  induction media generalizing used seen st with
  | nil =>
    refine ⟨iff_of_true ⟨st, rfl⟩ ⟨fun m hm => absurd hm List.not_mem_nil, trivial⟩, fun st' hrun => ?_⟩
    cases hrun
    rwa [usedSections, List.append_nil]
  | cons m media ih =>
    obtain ⟨hm, hrest⟩ := List.forall_mem_cons.mp hmedia
    rw [List.foldlM_cons, List.forall_mem_cons]
    cases hkind : kindOf m with
    | none =>
      have hno : ∀ st', extractMedia parseParams st m ≠ .ok st' := by
        intro st' hrun
        obtain ⟨j, hj, hrun⟩ := bind_ok.mp hrun
        obtain ⟨kind, hstr, -⟩ := bind_ok.mp hrun
        rw [kindOf_read.mpr ⟨j, hj, hstr⟩] at hkind
        cases hkind
      constructor
      · refine iff_of_false ?_ fun hc => by simp at hc
        rintro ⟨st', hrun⟩
        obtain ⟨st₁, hst₁, -⟩ := bind_ok.mp hrun
        exact hno st₁ hst₁
      · intro st' hrun
        obtain ⟨st₁, hst₁, -⟩ := bind_ok.mp hrun
        exact absurd hst₁ (hno st₁)
    | some kind =>
      rw [usedSections, hkind]
      dsimp only
      obtain ⟨hin, hnew, st₁, hrun₁, hsame, hseen₁⟩ | ⟨hold, hskip⟩ :=
        extractMedia_cases parseParams hkind hseen
      · rw [if_pos ⟨hin, hnew⟩, hrun₁, Along]
        have h₁ : Collected parseParams used st₁ := by
          unfold Collected
          rw [hsame]
          exact h
        obtain ⟨hiff, hnext⟩ := extractSection_collects (s := (kind, m)) hm h₁
        have hflags : ∀ st₂, extractSection parseParams st₁ kind m = .ok st₂ →
            KindsSeen st₂ (kind :: seen) := by
          intro st₂ hst₂
          obtain ⟨ha, hv⟩ := extractSection_flags hst₂
          unfold KindsSeen
          rw [ha, hv]
          exact hseen₁
        refine ⟨⟨?_, ?_⟩, ?_⟩
        · rintro ⟨st', hrun⟩
          obtain ⟨st₂, hst₂, hrun⟩ := bind_ok.mp hrun
          obtain ⟨htyped, hreadable⟩ := (ih hrest (hflags st₂ hst₂) (hnext st₂ hst₂)).1.mp ⟨st', hrun⟩
          exact ⟨⟨rfl, htyped⟩, hiff.mp ⟨st₂, hst₂⟩, hreadable⟩
        · rintro ⟨⟨-, htyped⟩, hfirst, hreadable⟩
          obtain ⟨st₂, hst₂⟩ := hiff.mpr hfirst
          obtain ⟨st', hrun⟩ := (ih hrest (hflags st₂ hst₂) (hnext st₂ hst₂)).1.mpr ⟨htyped, hreadable⟩
          exact ⟨st', bind_ok.mpr ⟨st₂, hst₂, hrun⟩⟩
        · intro st' hrun
          obtain ⟨st₂, hst₂, hrun⟩ := bind_ok.mp hrun
          have hall := (ih hrest (hflags st₂ hst₂) (hnext st₂ hst₂)).2 st' hrun
          rwa [List.append_assoc] at hall
      · rw [if_neg hold, hskip]
        obtain ⟨hiff, hall⟩ := ih hrest hseen h
        refine ⟨⟨fun hrun => ?_, ?_⟩, fun st' hrun => hall st' hrun⟩
        · obtain ⟨htyped, hreadable⟩ := hiff.mp hrun
          exact ⟨⟨rfl, htyped⟩, hreadable⟩
        · rintro ⟨⟨-, htyped⟩, hreadable⟩
          exact hiff.mpr ⟨htyped, hreadable⟩

end

end MediasoupClient.Sdp
