import MediasoupClient.Sdp.FmtpTurn

/-! What becomes of the parameters of an answer (sdputil/sdputil.cpp, applyCodecParameters).

        codecs of the offer      opus 111     VP8 96     opus 111     opus 112
                                     │                       │            │
        fmtp lines           111     ▼           –           ▼            –
                             112     –           –           –            ▼

    Every opus codec whose payload type the answer has takes its turn on the first line of this
    payload type, or on a new one. The turns of other payload types leave the line as it is. -/

namespace MediasoupClient.Sdp
open Lib

/-! ### All codecs -/

/-- An answered section with these lines. -/
structure HasLines (rtps fmtps : List Json) (answer : Json) : Prop where
  isObject : answer.isObject = true
  rtp : answer.find "rtp" = some (.arr rtps)
  fmtp : answer.find "fmtp" = some (.arr fmtps)

/-- The opus codecs of a payload type, if the answer has it. -/
def turnsOf (rtps : List Json) (p : ℤ) (codecs : List Json) : List Json :=
  codecs.filter fun codec =>
    isOpus codec && decide (codecNumber codec = some p) && (lineOf p rtps).isSome

/-- What the codecs make of the fmtp lines. -/
structure Turned (pf : Platform) (rtps codecs fmtps fmtps' : List Json) : Prop where
  numbered : ∀ l ∈ fmtps', NumberedLine l
  scanned : ∀ q, Scanned q fmtps' ↔ Scanned q fmtps
  read : ∀ q, ParametersRead pf q fmtps' ↔ ParametersRead pf q fmtps
  untouched : ∀ q, turnsOf rtps q codecs = [] → lineOf q fmtps' = lineOf q fmtps
  parameters : ∀ q m, fmtpParameters pf q fmtps = .ok m →
    ∃ m', fmtpParameters pf q fmtps' = .ok m' ∧
      ∀ k, get k m' = (turnsOf rtps q codecs).foldl (turned k) (get k m)

section
variable {pf : Platform} {rtps fmtps : List Json}

theorem HasLines.write_rtp {answer : Json} (h : HasLines rtps fmtps answer) :
    ∃ answer', answer.write "rtp" (.arr rtps) = .ok answer' ∧ HasLines rtps fmtps answer' := by
  obtain ⟨hobject, -, hfmtp⟩ := h
  cases answer with
  | obj m => exact ⟨_, rfl, rfl, get_put_self _ _ _, (get_put_of_ne _ (by decide) _).trans hfmtp⟩
  | _ => cases hobject

theorem HasLines.write_fmtp {answer : Json} (h : HasLines rtps fmtps answer) (fmtps' : List Json) :
    ∃ answer', answer.write "fmtp" (.arr fmtps') = .ok answer' ∧ HasLines rtps fmtps' answer' := by
  obtain ⟨hobject, hrtp, -⟩ := h
  cases answer with
  | obj m => exact ⟨_, rfl, rfl, (get_put_of_ne _ (by decide) _).trans hrtp, get_put_self _ _ _⟩
  | _ => cases hobject

/-- Codecs without a turn leave the lines as they are. -/
theorem Turned.refl {codecs : List Json} (hnone : ∀ q, turnsOf rtps q codecs = [])
    (h : ∀ l ∈ fmtps, NumberedLine l) : Turned pf rtps codecs fmtps fmtps := by
  refine ⟨h, fun _ => Iff.rfl, fun _ => Iff.rfl, fun _ _ => rfl, fun q m hm => ⟨m, hm, fun k => ?_⟩⟩
  rw [hnone]
  rfl

theorem Turned.append {codecs codecs' fmtps' fmtps'' : List Json}
    (h : Turned pf rtps codecs fmtps fmtps') (h' : Turned pf rtps codecs' fmtps' fmtps'') :
    Turned pf rtps (codecs ++ codecs') fmtps fmtps'' := by
  have hsplit : ∀ q, turnsOf rtps q (codecs ++ codecs') =
      turnsOf rtps q codecs ++ turnsOf rtps q codecs' := fun _ => List.filter_append ..
  refine ⟨h'.numbered, fun q => (h'.scanned q).trans (h.scanned q),
    fun q => (h'.read q).trans (h.read q), fun q hq => ?_, fun q m hm => ?_⟩
  · rw [hsplit, List.append_eq_nil_iff] at hq
    rw [h'.untouched q hq.2, h.untouched q hq.1]
  · obtain ⟨m', hm', hget'⟩ := h.parameters q m hm
    obtain ⟨m'', hm'', hget''⟩ := h'.parameters q m' hm'
    refine ⟨m'', hm'', fun k => ?_⟩
    rw [hget'', hget', hsplit, List.foldl_append]

theorem fmtpParameters_of_line {p : ℤ} {line : Json} {config : String}
    (hline : lineOf p fmtps = some line) (hconfig : line.find "config" = some (.str config)) :
    fmtpParameters pf p fmtps = parseParams pf config := by
  rw [fmtpParameters, hline, Option.bind_some, hconfig]

theorem fmtpParameters_none {p : ℤ} (hline : lineOf p fmtps = none) :
    fmtpParameters pf p fmtps = .ok [] := by
  rw [fmtpParameters, hline, Option.bind_none]

theorem fmtpParameters_congr {p : ℤ} {fmtps' : List Json} (h : lineOf p fmtps' = lineOf p fmtps) :
    fmtpParameters pf p fmtps' = fmtpParameters pf p fmtps := by
  rw [fmtpParameters, fmtpParameters, h]

/-- The first line of a payload type, or the one that is made, has the parameters. -/
theorem line_parameters {p : ℤ} (hread : ParametersRead pf p fmtps) (payloadType : Json) :
    ∃ config m, ((lineOf p fmtps).getD (newLine payloadType)).find "config" = some (.str config) ∧
      parseParams pf config = .ok m ∧ fmtpParameters pf p fmtps = .ok m := by
  cases hline : lineOf p fmtps with
  | none => exact ⟨"", [], (find_newLine payloadType).2, rfl, fmtpParameters_none hline⟩
  | some line =>
    obtain ⟨config, m, hconfig, hm⟩ := hread line hline
    exact ⟨config, m, hconfig, hm, (fmtpParameters_of_line hline hconfig).trans hm⟩

/-- The turn of a codec, by the line that it puts in place. -/
theorem Turned.placed {codec line : Json} {p : ℤ} {config : String} {m m' : Members}
    {fmtps' : List Json} (hopus : isOpus codec = true) (hp : codecNumber codec = some p)
    (hdeclared : (lineOf p rtps).isSome = true) (hplaced : PutInPlace p line fmtps fmtps')
    (hread : ParametersRead pf p fmtps) (hm : fmtpParameters pf p fmtps = .ok m)
    (hconfig : line.find "config" = some (.str config)) (hm' : parseParams pf config = .ok m')
    (hget : ∀ k, get k m' = turned k (get k m) codec) : Turned pf rtps [codec] fmtps fmtps' := by
  have hown : turnsOf rtps p [codec] = [codec] := by
    simp [turnsOf, hopus, hp, hdeclared]
  have hother : ∀ q, q ≠ p → turnsOf rtps q [codec] = [] := by
    intro q hq
    simp [turnsOf, hp, Ne.symm hq]
  refine ⟨hplaced.numbered, hplaced.scanned, fun q => ?_, fun q hq => ?_, fun q m₁ hm₁ => ?_⟩
  · by_cases hqp : q = p
    · subst hqp
      refine iff_of_true (fun l hl => ?_) hread
      cases hl.symm.trans hplaced.own
      exact ⟨config, m', hconfig, hm'⟩
    · unfold ParametersRead
      rw [hplaced.others q hqp]
  · refine hplaced.others q fun hqp => ?_
    rw [hqp, hown] at hq
    cases hq
  · by_cases hqp : q = p
    · subst hqp
      cases hm₁.symm.trans hm
      refine ⟨m', (fmtpParameters_of_line hplaced.own hconfig).trans hm', fun k => ?_⟩
      rw [hown, hget]
      rfl
    · refine ⟨m₁, (fmtpParameters_congr (hplaced.others q hqp)).trans hm₁, fun k => ?_⟩
      rw [hother q hqp]
      rfl

theorem lineOf_isSome (p : ℤ) (lines : List Json) :
    (lineOf p lines).isSome = (lines.findIdx? (isLineOf p)).isSome := by
  unfold lineOf
  rw [List.findIdx?_isSome, List.isSome_find?]

variable (pf) in
/-- An opus codec before the fmtp lines are looked at: whether the answer has its payload type. -/
theorem applyCodec_search {answer codec payloadType : Json} {p : ℤ} (hopus : isOpus codec = true)
    (hpayload : codec.find "payloadType" = some payloadType) (hp : integer payloadType = some p)
    (hfits : p < 2 ^ 63) (hrtps : ∀ l ∈ rtps, NumberedLine l) (hview : HasLines rtps fmtps answer) :
    ∃ answer₁, HasLines rtps fmtps answer₁ ∧
      (¬ Scanned p rtps → ∃ e, applyCodec (parseParams pf) answer codec = .error e) ∧
      (Scanned p rtps → (lineOf p rtps).isSome = false →
        applyCodec (parseParams pf) answer codec = .ok answer₁) ∧
      (Scanned p rtps → (lineOf p rtps).isSome = true →
        applyCodec (parseParams pf) answer codec = (do
          let lines ← fmtpLineOf payloadType fmtps
          let fmtp ← applyOpus (parseParams pf) codec (lines.2.getD lines.1 .null)
          answer₁.write "fmtp" (.arr (lines.2.set lines.1 fmtp)))) := by
  obtain ⟨mimeType, hmime, hlower⟩ : ∃ mimeType, codec.find "mimeType" = some (.str mimeType) ∧
      lower mimeType = "audio/opus" := by
    unfold isOpus at hopus
    split at hopus
    · rename_i mimeType hmime
      exact ⟨mimeType, hmime, of_decide_eq_true hopus⟩
    · cases hopus
  obtain ⟨answer₁, hwrite, hview₁⟩ := hview.write_rtp
  have hread : (liftM (codec.read "mimeType") : Except Invalid Json) = .ok (.str mimeType) :=
    lift_ok.mpr (Json.read_ok.mpr hmime)
  have htext : (liftM (Json.str mimeType).toStr : Except Invalid String) = .ok mimeType := rfl
  have hrtp : (liftM (answer.readOrNull "rtp") : Except Invalid Json) = .ok (.arr rtps) := by
    rw [lift_ok, readOrNull_of_isObject hview.isObject, hview.rtp]
    rfl
  have hwrite : (liftM (answer.write "rtp" (.arr rtps)) : Except Invalid Json) = .ok answer₁ :=
    lift_ok.mpr hwrite
  have hpayload : (liftM (codec.read "payloadType") : Except Invalid Json) = .ok payloadType :=
    lift_ok.mpr (Json.read_ok.mpr hpayload)
  have hlines : linesOf (answer₁.find "fmtp") = .ok fmtps := by
    rw [hview₁.fmtp]
    rfl
  refine ⟨answer₁, hview₁, ?_⟩
  unfold applyCodec
  rw [hread, ok_bind, htext, ok_bind, if_neg (not_not.mpr hlower), hrtp, ok_bind, hwrite, ok_bind,
    hpayload, ok_bind, hlines]
  change (_ → ∃ e, (liftM (findIdx (hasPayload payloadType) rtps) : Except Invalid _) >>= _ = _) ∧
    (_ → _ → (liftM (findIdx (hasPayload payloadType) rtps) : Except Invalid _) >>= _ = _) ∧
    (_ → _ → (liftM (findIdx (hasPayload payloadType) rtps) : Except Invalid _) >>= _ = _)
  rcases findPayload_cases hp hfits hrtps with ⟨hscan, hidx⟩ | ⟨hscan, hidx⟩
  · rw [hidx, lineOf_isSome]
    refine ⟨fun hno => absurd hscan hno, fun _ hnone => ?_, fun _ hsome => ?_⟩
    · rw [Option.isSome_eq_false_iff, Option.isNone_iff_eq_none] at hnone
      rw [hnone]
      rfl
    · obtain ⟨idx, hfound⟩ := Option.isSome_iff_exists.mp hsome
      rw [hfound]
      rfl
  · rw [hidx]
    exact ⟨fun _ => ⟨_, rfl⟩, fun hno => absurd hno hscan, fun hno => absurd hno hscan⟩

/-- The fmtp line of the turn. -/
theorem line_numbered {payloadType : Json} {p : ℤ} (hp : integer payloadType = some p)
    (hfits : p < 2 ^ 63) (hfmtps : ∀ l ∈ fmtps, NumberedLine l) :
    NumberedLine ((lineOf p fmtps).getD (newLine payloadType)) ∧
      numberOf ((lineOf p fmtps).getD (newLine payloadType)) = some p := by
  cases hline : lineOf p fmtps with
  | none =>
    obtain ⟨hpayload, -⟩ := find_newLine payloadType
    refine ⟨⟨rfl, fun v hv => ?_⟩, ?_⟩
    · cases hpayload.symm.trans hv
      exact ⟨p, hp, hfits⟩
    · rw [Option.getD_none, numberOf, hpayload, Option.bind_some, hp]
  | some line =>
    have hfound := List.find?_some hline
    exact ⟨hfmtps line (List.mem_of_find?_eq_some hline), of_decide_eq_true hfound⟩

/-- A line keeps its payload type when its other members change. -/
theorem NumberedLine.frame {line line' : Json} (h : NumberedLine line)
    (hobject : line'.isObject = true) (hframe : ∀ k, k ≠ "config" → line'.find k = line.find k) :
    NumberedLine line' ∧ numberOf line' = numberOf line := by
  have hpayload := hframe "payload" (by decide)
  refine ⟨⟨hobject, fun v hv => h.payload v ?_⟩, ?_⟩
  · rw [← hpayload, hv]
  · rw [numberOf, numberOf, hpayload]

theorem fmtpLineOf_fails {payloadType : Json} {p : ℤ} (hp : integer payloadType = some p)
    (hfits : p < 2 ^ 63) (hfmtps : ∀ l ∈ fmtps, NumberedLine l) (hscan : ¬ Scanned p fmtps) :
    fmtpLineOf payloadType fmtps = .error .undefined := by
  obtain ⟨-, hidx⟩ := (findPayload_cases hp hfits hfmtps).resolve_left fun hc => hscan hc.1
  rw [fmtpLineOf, hidx]
  rfl

section
variable {answer codec payloadType : Json} {p : ℤ}

/-- The turn of an opus codec over the fmtp lines. -/
theorem lines_turned (hcodec : OfferCodec codec) (hopus : isOpus codec = true)
    (hp : codecNumber codec = some p) (hinteger : integer payloadType = some p) (hfits : p < 2 ^ 63)
    (hdeclared : (lineOf p rtps).isSome = true) (hfmtps : ∀ l ∈ fmtps, NumberedLine l)
    (hview : HasLines rtps fmtps answer) {call : Except Invalid Json}
    (hcall : call = (do
      let lines ← fmtpLineOf payloadType fmtps
      let fmtp ← applyOpus (parseParams pf) codec (lines.2.getD lines.1 .null)
      answer.write "fmtp" (.arr (lines.2.set lines.1 fmtp)))) :
    ((∃ answer', call = .ok answer') ↔ Scanned p fmtps ∧ ParametersRead pf p fmtps) ∧
      ∀ answer', call = .ok answer' →
        ∃ fmtps', HasLines rtps fmtps' answer' ∧ Turned pf rtps [codec] fmtps fmtps' := by
  by_cases hscan : Scanned p fmtps
  · obtain ⟨idx, lines, hlines, hline, hplaced⟩ := fmtpLineOf_placed hinteger hfits hfmtps hscan
    obtain ⟨hnumbered, hnumber⟩ := line_numbered hinteger hfits hfmtps
    have hlines : (liftM (fmtpLineOf payloadType fmtps) : Except Invalid (ℕ × List Json)) =
        .ok (idx, lines) := lift_ok.mpr hlines
    rw [hlines, ok_bind, hline] at hcall
    by_cases hread : ParametersRead pf p fmtps
    · obtain ⟨config, m, hconfig, hparse, hm⟩ := line_parameters hread payloadType
      obtain ⟨fmtp', config', m', happly, hobject, hframe, hconfig', hparse', hget⟩ :=
        applyOpus_turned hcodec.parameters hnumbered.isObject hconfig hparse
      obtain ⟨hnumbered', hnumber'⟩ := hnumbered.frame hobject hframe
      have hplaced' := hplaced fmtp' hnumbered' (hnumber'.trans hnumber)
      obtain ⟨answer₂, hwrite, hview₂⟩ := hview.write_fmtp (lines.set idx fmtp')
      rw [happly, ok_bind, lift_ok.mpr hwrite] at hcall
      rw [hcall]
      refine ⟨iff_of_true ⟨answer₂, rfl⟩ ⟨hscan, hread⟩, fun answer' h => ?_⟩
      cases h
      refine ⟨lines.set idx fmtp', hview₂, ?_⟩
      exact .placed hopus hp hdeclared hplaced' hread hm hconfig' hparse' hget
    · have hno : ¬ ∃ answer', call = .ok answer' := by
        rintro ⟨answer', h⟩
        obtain ⟨fmtp', happly, -⟩ := bind_ok.mp (hcall.symm.trans h)
        refine hread fun line hl => ?_
        rw [hl] at happly
        exact applyOpus_reads happly
      exact ⟨iff_of_false hno fun h => hread h.2, fun answer' h => absurd ⟨answer', h⟩ hno⟩
  · have hno : ¬ ∃ answer', call = .ok answer' := by
      rintro ⟨answer', h⟩
      obtain ⟨lines, hlines, -⟩ := bind_ok.mp (hcall.symm.trans h)
      cases (lift_ok.mp hlines).symm.trans (fmtpLineOf_fails hinteger hfits hfmtps hscan)
    exact ⟨iff_of_false hno fun h => hscan h.1, fun answer' h => absurd ⟨answer', h⟩ hno⟩

variable (pf) in
/-- The turn of an opus codec. -/
theorem applyCodec_opus (hcodec : OfferCodec codec) (hopus : isOpus codec = true)
    (hp : codecNumber codec = some p) (hrtps : ∀ l ∈ rtps, NumberedLine l)
    (hfmtps : ∀ l ∈ fmtps, NumberedLine l) (hview : HasLines rtps fmtps answer) :
    ((∃ answer', applyCodec (parseParams pf) answer codec = .ok answer') ↔
        Turnable pf rtps fmtps p) ∧
      ∀ answer', applyCodec (parseParams pf) answer codec = .ok answer' →
        ∃ fmtps', HasLines rtps fmtps' answer' ∧ Turned pf rtps [codec] fmtps fmtps' := by
  obtain ⟨payloadType, p', hpayload, hinteger, hfits⟩ := hcodec.payloadType
  obtain rfl : p' = p := by
    rw [codecNumber, hpayload, Option.bind_some, hinteger] at hp
    exact Option.some.inj hp
  obtain ⟨answer₁, hview₁, hfails, hskips, hturns⟩ :=
    applyCodec_search pf hopus hpayload hinteger hfits hrtps hview
  unfold Turnable
  by_cases hscan : Scanned p' rtps
  · rw [and_iff_right hscan]
    cases hdeclared : (lineOf p' rtps).isSome with
    | false =>
      rw [hskips hscan hdeclared]
      refine ⟨iff_of_true ⟨answer₁, rfl⟩ fun hd => (by cases hd), fun answer' h => ?_⟩
      cases h
      refine ⟨fmtps, hview₁, .refl (fun q => ?_) hfmtps⟩
      by_cases hq : q = p'
      · simp [turnsOf, hq, hdeclared]
      · simp [turnsOf, hp, Ne.symm hq]
    | true =>
      have hready : (true = true → Scanned p' fmtps ∧ ParametersRead pf p' fmtps) ↔
          Scanned p' fmtps ∧ ParametersRead pf p' fmtps := ⟨fun h => h rfl, fun h _ => h⟩
      rw [hready]
      exact lines_turned hcodec hopus hp hinteger hfits hdeclared hfmtps hview₁
        (hturns hscan hdeclared)
  · obtain ⟨e, he⟩ := hfails hscan
    rw [he]
    refine ⟨iff_of_false ?_ fun h => hscan h.1, fun answer' h => ?_⟩
    · rintro ⟨answer', h⟩
      cases h
    · cases h

end

theorem Turned.turnable {codecs fmtps' : List Json} (h : Turned pf rtps codecs fmtps fmtps')
    (p : ℤ) : Turnable pf rtps fmtps' p ↔ Turnable pf rtps fmtps p := by
  rw [Turnable, Turnable, h.scanned, h.read]

/-- Another codec has no turn. -/
theorem applyCodec_other {answer codec : Json} (hcodec : OfferCodec codec)
    (hopus : isOpus codec = false) : applyCodec (parseParams pf) answer codec = .ok answer := by
  obtain ⟨mimeType, hmime⟩ := hcodec.mimeType
  have hread : (liftM (codec.read "mimeType") : Except Invalid Json) = .ok (.str mimeType) :=
    lift_ok.mpr (Json.read_ok.mpr hmime)
  have htext : (liftM (Json.str mimeType).toStr : Except Invalid String) = .ok mimeType := rfl
  unfold isOpus at hopus
  rw [hmime] at hopus
  unfold applyCodec
  rw [hread, ok_bind, htext, ok_bind, if_pos (of_decide_eq_false hopus)]
  rfl

variable (pf) in
/-- The run over all codecs: it returns if every turn does, and the turns are made one after the
    other. -/
theorem applyCodec_run {codecs : List Json} {answer : Json} (hcodecs : ∀ c ∈ codecs, OfferCodec c)
    (hrtps : ∀ l ∈ rtps, NumberedLine l) (hfmtps : ∀ l ∈ fmtps, NumberedLine l)
    (hview : HasLines rtps fmtps answer) :
    ((∃ answer', codecs.foldlM (applyCodec (parseParams pf)) answer = .ok answer') ↔
        ∀ codec ∈ codecs, isOpus codec = true → ∀ p, codecNumber codec = some p →
          Turnable pf rtps fmtps p) ∧
      ∀ answer', codecs.foldlM (applyCodec (parseParams pf)) answer = .ok answer' →
        ∃ fmtps', HasLines rtps fmtps' answer' ∧ Turned pf rtps codecs fmtps fmtps' := by
  have hrun := foldlM_along (f := applyCodec (parseParams pf)) (T := OfferCodec)
    (C := fun _ codec => isOpus codec = true → ∀ p, codecNumber codec = some p →
      Turnable pf rtps fmtps p)
    (D := fun done b => ∃ fmtps', HasLines rtps fmtps' b ∧ Turned pf rtps done fmtps fmtps')
    ?_ [] codecs hcodecs ⟨fmtps, hview, .refl (fun _ => rfl) hfmtps⟩
  · rw [along_iff_forall] at hrun
    exact hrun
  · rintro done codec b hcodec ⟨fmtps', hview', hdone⟩
    cases hopus : isOpus codec with
    | false =>
      rw [applyCodec_other hcodec hopus]
      refine ⟨iff_of_true ⟨b, rfl⟩ fun h => (by cases h), fun b' hb' => ?_⟩
      cases hb'
      refine ⟨fmtps', hview', hdone.append (.refl (fun q => ?_) hdone.numbered)⟩
      simp [turnsOf, hopus]
    | true =>
      obtain ⟨payloadType, p, hpayload, hinteger, -⟩ := hcodec.payloadType
      have hp : codecNumber codec = some p := by
        rw [codecNumber, hpayload, Option.bind_some, hinteger]
      obtain ⟨hreturns, hturn⟩ :=
        applyCodec_opus pf hcodec hopus hp hrtps hdone.numbered hview'
      refine ⟨?_, fun b' hb' => ?_⟩
      · rw [hreturns, hdone.turnable]
        refine ⟨fun h _ q hq => ?_, fun h => h rfl p hp⟩
        cases hq.symm.trans hp
        exact h
      · obtain ⟨fmtps'', hview'', hturned⟩ := hturn b' hb'
        exact ⟨fmtps'', hview'', hdone.append hturned⟩

end

/-! ### What is negotiated -/

/-- Rtp parameters of an offer. -/
structure OfferParameters (offer : Json) : Prop where
  codecs : (offer.find "codecs").isSome = true
  complete : ∀ codec ∈ linesAt "codecs" offer, OfferCodec codec

/-- An opus codec of this payload type carries `sprop-stereo`. -/
def NegotiatesStereo (offer : Json) (p : ℤ) : Prop :=
  ∃ codec ∈ linesAt "codecs" offer, isOpus codec = true ∧ codecNumber codec = some p ∧
    (spropStereo codec).isSome = true

/-- The same parameters, but for `stereo` where it is negotiated. -/
def ParametersSame (stereo : Prop) (before after : Except Invalid Members) : Prop :=
  after = before ∨ ∃ m m', before = .ok m ∧ after = .ok m' ∧
    ∀ k, (k = "stereo" → ¬ stereo) → SameValue (get k m') (get k m)

section
variable (pf : Platform) (offer answer : Json)

/-- The call returns, and the parameters of every payload type are the same as before it. -/
def OnlyNegotiated : Prop :=
  ∃ answer', applyCodecParameters (parseParams pf) offer answer = .ok answer' ∧
    ∀ p, ParametersSame (NegotiatesStereo offer p) (fmtpParameters pf p (linesAt "fmtp" answer))
      (fmtpParameters pf p (linesAt "fmtp" answer'))

/-- The fmtp lines of the opus codecs can be read, and every parameter lasts that is not
    negotiated. -/
def ParametersLast : Prop :=
  ∀ codec ∈ linesAt "codecs" offer, isOpus codec = true → ∀ p, codecNumber codec = some p →
    Turnable pf (linesAt "rtp" answer) (linesAt "fmtp" answer) p ∧
      ((lineOf p (linesAt "rtp" answer)).isSome = true →
        ∀ m, fmtpParameters pf p (linesAt "fmtp" answer) = .ok m →
          ∀ k v, get k m = some v → Lasting v ∨ k = "stereo" ∧ NegotiatesStereo offer p)

end

theorem HasLines.linesAt_fmtp {rtps fmtps : List Json} {answer : Json}
    (h : HasLines rtps fmtps answer) : linesAt "fmtp" answer = fmtps := by
  rw [linesAt, h.fmtp]
  rfl

theorem Typed.numbered {fields : List (String × FieldType)} {line : Json} (h : Typed fields line)
    (hk : ("payload", FieldType.number) ∈ fields) : NumberedLine line := by
  obtain ⟨m, rfl, hm⟩ := h
  refine ⟨rfl, fun v hv => ?_⟩
  obtain ⟨text, rfl⟩ := hm _ hk v hv
  unfold toType
  split_ifs with hfits
  · exact ⟨_, rfl, by exact_mod_cast hfits⟩
  · exact ⟨0, rfl, by decide⟩

/-- The lines of a section that has been parsed. -/
theorem parsed_lines {sdp : String} {answer : Json} (h : answer ∈ sectionsOf (parse sdp)) :
    HasLines (linesAt "rtp" answer) (linesAt "fmtp" answer) answer ∧
      (∀ line ∈ linesAt "rtp" answer, NumberedLine line) ∧
      ∀ line ∈ linesAt "fmtp" answer, NumberedLine line := by
  obtain ⟨m, rfl, hshape⟩ := (parse_session sdp).shape answer h
  obtain ⟨⟨hrtp, hrtps⟩, ⟨hfmtp, hfmtps⟩, -⟩ := hshape.sectionLines
  have hlines : ∀ rule ∈ rulesMap 'a', ((Json.obj m).find rule.push).isSome = true →
      (Json.obj m).find rule.push = some (.arr (linesAt rule.push (.obj m))) := by
    intro rule hrule hsome
    obtain ⟨v, hv⟩ := Option.isSome_iff_exists.mp hsome
    obtain ⟨lines, rfl, -⟩ := hshape.lines rule hrule v hv
    rw [linesAt, hv]
    rfl
  refine ⟨⟨rfl, hlines ⟨"rtp", rtpmapReg, rtpFields⟩ (by simp [rulesMap]) hrtp,
    hlines ⟨"fmtp", fmtpReg, fmtpFields⟩ (by simp [rulesMap]) hfmtp⟩, fun line hline => ?_,
    fun line hline => ?_⟩
  · exact (hrtps line hline).numbered (by simp)
  · exact (hfmtps line hline).numbered (by simp)

/-! ### The call -/

section
variable {pf : Platform} {offer answer : Json}

variable (pf) in
/-- The call is the run over the codecs. -/
theorem applyCodecParameters_run {sdp : String} (hoffer : OfferParameters offer)
    (hanswer : answer ∈ sectionsOf (parse sdp)) :
    ((∃ answer', applyCodecParameters (parseParams pf) offer answer = .ok answer') ↔
        ∀ codec ∈ linesAt "codecs" offer, isOpus codec = true → ∀ p, codecNumber codec = some p →
          Turnable pf (linesAt "rtp" answer) (linesAt "fmtp" answer) p) ∧
      ∀ answer', applyCodecParameters (parseParams pf) offer answer = .ok answer' →
        Turned pf (linesAt "rtp" answer) (linesAt "codecs" offer) (linesAt "fmtp" answer)
          (linesAt "fmtp" answer') := by
  obtain ⟨hview, hrtps, hfmtps⟩ := parsed_lines hanswer
  obtain ⟨codecs, hcodecs⟩ := Option.isSome_iff_exists.mp hoffer.codecs
  have hread : (liftM (offer.read "codecs") : Except Invalid Json) = .ok codecs :=
    lift_ok.mpr (Json.read_ok.mpr hcodecs)
  have hcall : applyCodecParameters (parseParams pf) offer answer =
      (linesAt "codecs" offer).foldlM (applyCodec (parseParams pf)) answer := by
    rw [applyCodecParameters, hread, ok_bind, linesAt, hcodecs]
    rfl
  obtain ⟨hreturns, hturned⟩ := applyCodec_run pf hoffer.complete hrtps hfmtps hview
  rw [hcall]
  refine ⟨hreturns, fun answer' h => ?_⟩
  obtain ⟨fmtps', hview', hrun⟩ := hturned answer' h
  rwa [hview'.linesAt_fmtp]

/-- Turns that write nothing under a key read its value again and again. -/
theorem turned_rereads {k : String} {codecs : List Json}
    (h : ∀ codec ∈ codecs, k = "stereo" → writtenStereo codec = none) (o : Option Json) :
    codecs.foldl (turned k) o = rereads codecs.length o := by
  induction codecs generalizing o with
  | nil => rfl
  | cons codec codecs ih =>
    obtain ⟨hcodec, hcodecs⟩ := List.forall_mem_cons.mp h
    have hfirst : turned k o codec = o.bind reread := by
      unfold turned
      split_ifs with hk
      · rw [hcodec hk]
        rfl
      · rfl
    rw [List.foldl_cons, ih hcodecs, hfirst]
    rfl

/-- A written `stereo` is negotiated. -/
theorem written_negotiated {codec : Json} {p : ℤ} (hcodec : codec ∈ linesAt "codecs" offer)
    (hopus : isOpus codec = true) (hp : codecNumber codec = some p)
    (h : ¬ NegotiatesStereo offer p) : writtenStereo codec = none := by
  have hnone : spropStereo codec = none := by
    by_contra hsome
    exact h ⟨codec, hcodec, hopus, hp, Option.isSome_iff_ne_none.mpr hsome⟩
  rw [writtenStereo, hnone]

theorem mem_turnsOf {rtps codecs : List Json} {p : ℤ} {codec : Json} :
    codec ∈ turnsOf rtps p codecs ↔ codec ∈ codecs ∧ isOpus codec = true ∧
      codecNumber codec = some p ∧ (lineOf p rtps).isSome = true := by
  simp [turnsOf, and_assoc]

/-- A value equals itself, if it has been read. -/
theorem ParamValue.same {param : String} {v : Json} (h : ParamValue pf param v) :
    SameValue (some v) (some v) := by
  cases h with
  | text s => exact beq_self_eq_true s
  | number i => exact beq_self_eq_true i
  | decimal q => exact beq_self_eq_true q

/-- The value of a key that is not negotiated, after the turns of its payload type. -/
theorem turns_same {rtps : List Json} {p : ℤ} {k : String} {codec v : Json}
    (hcodec : codec ∈ turnsOf rtps p (linesAt "codecs" offer)) (hv : ParamValue pf k v)
    (hk : k = "stereo" → ¬ NegotiatesStereo offer p) :
    SameValue ((turnsOf rtps p (linesAt "codecs" offer)).foldl (turned k) (some v)) (some v) ↔
      Lasting v := by
  have hwritten : ∀ c ∈ turnsOf rtps p (linesAt "codecs" offer), k = "stereo" →
      writtenStereo c = none := by
    intro c hc hkey
    obtain ⟨hmem, hopus, hp, -⟩ := mem_turnsOf.mp hc
    exact written_negotiated hmem hopus hp (hk hkey)
  obtain ⟨n, hn⟩ := Nat.exists_eq_succ_of_ne_zero
    (List.length_pos_of_mem hcodec).ne'
  rw [turned_rereads hwritten, hn]
  exact rereads_same hv n

/-- Parameters that have been read, of whatever line. -/
theorem fmtpParameters_params {p : ℤ} {fmtps : List Json} {m : Members}
    (h : fmtpParameters pf p fmtps = .ok m) : Params pf m := by
  unfold fmtpParameters at h
  split at h
  · exact parseParams_params h
  · cases h
    exact params_nil pf

/-- CORRECT: `applyCodecParameters` returns and changes no parameter of any payload type but the
    `stereo` that it negotiates exactly if the lines of the opus codecs can be read and every other
    parameter lasts. -/
theorem only_negotiated_iff {sdp : String} (hoffer : OfferParameters offer)
    (hanswer : answer ∈ sectionsOf (parse sdp)) :
    OnlyNegotiated pf offer answer ↔ ParametersLast pf offer answer := by
  obtain ⟨hreturns, hturned⟩ := applyCodecParameters_run pf hoffer hanswer
  constructor
  · rintro ⟨answer', hcall, hsame⟩ codec hcodec hopus p hp
    have hrun := hturned answer' hcall
    refine ⟨hreturns.mp ⟨answer', hcall⟩ codec hcodec hopus p hp, fun hdeclared m hm k v hv => ?_⟩
    have hturn : codec ∈ turnsOf (linesAt "rtp" answer) p (linesAt "codecs" offer) :=
      mem_turnsOf.mpr ⟨hcodec, hopus, hp, hdeclared⟩
    have hvalue := ((fmtpParameters_params hm).members _ (mem_of_get hv)).2
    by_cases hkey : k = "stereo" ∧ NegotiatesStereo offer p
    · exact Or.inr hkey
    · have hfree : k = "stereo" → ¬ NegotiatesStereo offer p := not_and.mp hkey
      obtain ⟨m', hm', hget⟩ := hrun.parameters p m hm
      have hvalues : SameValue (get k m') (get k m) := by
        rcases hsame p with heq | ⟨m₁, m₁', hbefore, hafter, hall⟩
        · cases (hm'.symm.trans heq).trans hm
          rw [hv]
          exact hvalue.same
        · cases hm.symm.trans hbefore
          cases hm'.symm.trans hafter
          exact hall k hfree
      rw [hget, hv] at hvalues
      exact Or.inl ((turns_same hturn hvalue hfree).mp hvalues)
  · intro hlast
    obtain ⟨answer', hcall⟩ := hreturns.mpr fun codec hcodec hopus p hp =>
      (hlast codec hcodec hopus p hp).1
    have hrun := hturned answer' hcall
    refine ⟨answer', hcall, fun p => ?_⟩
    cases hturns : turnsOf (linesAt "rtp" answer) p (linesAt "codecs" offer) with
    | nil => exact Or.inl (fmtpParameters_congr (hrun.untouched p hturns))
    | cons codec rest =>
      have hturn : codec ∈ turnsOf (linesAt "rtp" answer) p (linesAt "codecs" offer) := by
        rw [hturns]
        exact List.mem_cons_self
      obtain ⟨hcodec, hopus, hp, hdeclared⟩ := mem_turnsOf.mp hturn
      obtain ⟨⟨-, hready⟩, hvalues⟩ := hlast codec hcodec hopus p hp
      obtain ⟨-, m, -, -, hm⟩ := line_parameters (hready hdeclared).2 .null
      obtain ⟨m', hm', hget⟩ := hrun.parameters p m hm
      refine Or.inr ⟨m, m', hm, hm', fun k hfree => ?_⟩
      rw [hget]
      cases hv : get k m with
      | none =>
        have hwritten : ∀ c ∈ turnsOf (linesAt "rtp" answer) p (linesAt "codecs" offer),
            k = "stereo" → writtenStereo c = none := by
          intro c hc hkey
          obtain ⟨hmem, hopus, hp, -⟩ := mem_turnsOf.mp hc
          exact written_negotiated hmem hopus hp (hfree hkey)
        rw [turned_rereads hwritten, rereads_none]
        trivial
      | some v =>
        have hvalue := ((fmtpParameters_params hm).members _ (mem_of_get hv)).2
        refine (turns_same hturn hvalue hfree).mpr ?_
        exact (hvalues hdeclared m hm k v hv).resolve_right fun h => hfree h.1 h.2

end

/-- A platform whose `long` has 64 bits, and whose `std::stod` takes no decimal for an underflow. -/
def lp64 : Platform := ⟨64, fun _ => false, by decide, fun _ h => by cases h⟩

/-- An offer of opus with these parameters. -/
def opusParameters (parameters : Members) : Json :=
  .obj [("codecs", .arr [.obj [("mimeType", .str "audio/opus"), ("parameters", .obj parameters),
    ("payloadType", .int 111)]])]

theorem opusParameters_complete (parameters : Members) :
    OfferParameters (opusParameters parameters) := by
  refine ⟨rfl, fun codec hcodec => ?_⟩
  obtain rfl := List.mem_singleton.mp hcodec
  exact ⟨⟨"audio/opus", rfl⟩, ⟨.int 111, 111, rfl, rfl, by decide⟩, rfl⟩

/-- An answered section with opus and this fmtp config. -/
def opusAnswer (config : String) : Json :=
  .obj [("fmtp", .arr [.obj [("config", .str config), ("payload", .int 111)]]),
    ("payloads", .str "111"), ("port", .int 9), ("protocol", .str "RTP/SAVPF"),
    ("rtp", .arr [.obj [("codec", .str "opus"), ("encoding", .str "2"), ("payload", .int 111),
      ("rate", .int 48000)]]), ("type", .str "audio")]

/-- Integers of 32 bits last. -/
theorem integers_last :
    OnlyNegotiated lp64 (opusParameters []) (opusAnswer "minptime=10;useinbandfec=1") := by
  have hanswer : opusAnswer "minptime=10;useinbandfec=1" ∈ sectionsOf (parse
    "m=audio 9 RTP/SAVPF 111\na=rtpmap:111 opus/48000/2\na=fmtp:111 minptime=10;useinbandfec=1") :=
    List.mem_singleton_self _
  refine (only_negotiated_iff (opusParameters_complete []) hanswer).mpr ?_
  intro codec hcodec _ p hp
  obtain rfl := List.mem_singleton.mp hcodec
  obtain rfl : 111 = p := Option.some.inj hp
  have hparameters : fmtpParameters lp64 111
      (linesAt "fmtp" (opusAnswer "minptime=10;useinbandfec=1")) =
        .ok [("minptime", .int 10), ("useinbandfec", .int 1)] := rfl
  have hscan : ∀ key ∈ ["rtp", "fmtp"], Scanned 111
      (linesAt key (opusAnswer "minptime=10;useinbandfec=1")) := by
    simp only [List.forall_mem_cons, List.not_mem_nil, false_imp_iff, implies_true, and_true]
    exact ⟨⟨rfl, fun h => (by cases h)⟩, ⟨rfl, fun h => (by cases h)⟩⟩
  refine ⟨⟨hscan _ (by simp), fun _ => ⟨hscan _ (by simp), fun line hline => ?_⟩⟩,
    fun _ m hm k v hv => Or.inl ?_⟩
  · cases hline
    exact ⟨_, _, rfl, rfl⟩
  · cases hparameters.symm.trans hm
    have hmem := mem_of_get hv
    simp only [List.mem_cons, Prod.mk.injEq, List.not_mem_nil, or_false] at hmem
    obtain ⟨-, rfl⟩ | ⟨-, rfl⟩ := hmem
    · exact ⟨by decide, by decide⟩
    · exact ⟨by decide, by decide⟩

/-- A key without a value is printed as `cbr=`, which is no parameter. -/
theorem valueless_key_lost : ¬ ∀ (pf : Platform) (sdp : String) (offer answer : Json),
    OfferParameters offer → answer ∈ sectionsOf (parse sdp) → OnlyNegotiated pf offer answer := by
  intro h
  obtain ⟨answer', hcall, hsame⟩ := h lp64
    "m=audio 9 RTP/SAVPF 111\na=rtpmap:111 opus/48000/2\na=fmtp:111 minptime=10;cbr"
    (opusParameters []) (opusAnswer "minptime=10;cbr") (opusParameters_complete []) (List.mem_singleton_self _)
  have hafter : applyCodecParameters (parseParams lp64) (opusParameters [])
      (opusAnswer "minptime=10;cbr") = .ok (opusAnswer "cbr=;minptime=10") := rfl
  cases hcall.symm.trans hafter
  have hbefore : fmtpParameters lp64 111 (linesAt "fmtp" (opusAnswer "minptime=10;cbr")) =
      .ok [("cbr", .str ""), ("minptime", .int 10)] := rfl
  have hleft : fmtpParameters lp64 111 (linesAt "fmtp" (opusAnswer "cbr=;minptime=10")) =
      .ok [("minptime", .int 10)] := rfl
  have hlost := hsame 111
  rw [hbefore, hleft] at hlost
  rcases hlost with heq | ⟨m, m', hm, hm', hall⟩
  · exact absurd (congrArg List.length (Except.ok.inj heq)) (by decide)
  · cases hm
    cases hm'
    exact hall "cbr" fun hk => absurd hk (by decide)

end MediasoupClient.Sdp
