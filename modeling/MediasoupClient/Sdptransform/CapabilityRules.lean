import MediasoupClient.Sdptransform.FindRule

/-! The rules that the capabilities are read with are those of the grammar.

        rtpmap:111  opus / 48000 / 2
               ───  ────   ─────   ─       each token as long as it can be, and what has to come
                                           next right behind it

    The expressions of `Sdp.rulesMap` go from token to token and never come back. The engine does,
    but nowhere in these six rules a shorter token helps: what comes behind it cannot begin with a
    character of the token. -/

namespace MediasoupClient.Sdptransform
open Lib Lib.Regex Sdp

variable {p : Char → Bool} {content s : List Char} {g : List (List Char)}

/-! ### Tokens -/

theorem literal_some {text : String} {rest : List Char} (h : literal text content = some rest) :
    content = text.toList ++ rest := by
  obtain ⟨text', hcontent, htext⟩ := List.dropPrefix?_eq_some_iff.mp h
  rw [hcontent, eq_of_beq htext]

@[simp] theorem literal_append (text : String) (rest : List Char) :
    literal text (text.toList ++ rest) = some rest :=
  List.dropPrefix?_append_of_beq _ (beq_self_eq_true _)

theorem token_append (hu : ∀ c ∈ content, p c = true) (hs : stops p s = true) :
    token p (content ++ s) = (String.ofList content, s) := by
  have hstop : s.takeWhile p = [] ∧ s.dropWhile p = s := by
    cases s with
    | nil => exact ⟨rfl, rfl⟩
    | cons c s =>
      have hc := head_of_stops hs c rfl
      exact ⟨List.takeWhile_cons_of_neg (Bool.eq_false_iff.mp hc),
        List.dropWhile_cons_of_neg (Bool.eq_false_iff.mp hc)⟩
  rw [token, List.takeWhile_append_of_pos hu, List.dropWhile_append_of_pos hu, hstop.1, hstop.2,
    List.append_nil]

/-- A literal, and what comes behind it. -/
theorem first_lit_then (text : String) {k : Regex} {rest : List Char}
    (h : first k s = some (g, rest)) :
    first (.seq (lit text) k) (text.toList ++ s) = some (g, rest) := first_chars_then h

/-- A token, and the rest behind it. -/
theorem first_token {k : Regex} {rest : List Char} (h : first k (s.dropWhile p) = some (g, rest)) :
    first (.seq (field p) k) s = some (s.takeWhile p :: g, rest) :=
  first_seq (first_field_any p s) h

/-- Two ways to read a line: what one finds, the engine finds, and it finds nothing else. -/
def SameReads (reg : List Char → Option (List String)) (rule : Rule) : Prop :=
  ∀ content, reg content = (rule.reg.search content).map (·.map String.ofList)

theorem sameReads {reg : List Char → Option (List String)} {rule : Rule}
    (hsound : ∀ content groups, reg content = some groups →
      ∃ g, rule.Reads content g ∧ groups = g.map String.ofList)
    (hcomplete : ∀ u g rest, rule.reg.body.Reads u g → reg (u ++ rest) ≠ none)
    (hanchored : rule.reg.anchored = true) : SameReads reg rule := by
  intro content
  cases hreg : reg content with
  | some groups =>
    obtain ⟨g, hread, rfl⟩ := hsound content groups hreg
    rw [hread.search, Option.map_some]
  | none =>
    cases hsearch : rule.reg.search content with
    | none => rfl
    | some g =>
      rw [Reg.search, if_pos hanchored] at hsearch
      obtain ⟨m, hfirst, -⟩ := Option.map_eq_some_iff.mp hsearch
      obtain ⟨u, rfl, hu⟩ := first_reads hfirst
      exact absurd hreg (hcomplete u m.1 m.2 hu)

theorem dot_eq : (fun c : Char => decide (c ≠ '\n' ∧ c ≠ '\r')) = dot := by
  funext c
  exact Bool.decide_and ..

/-! ### One rule after the other -/

theorem fmtp_same : SameReads fmtpReg fmtpRule := by
  refine sameReads (fun content groups h => ?_) (fun u g rest hu => ?_) rfl
  · obtain ⟨r₁, h₁, h⟩ := Option.bind_eq_some_iff.mp h
    obtain ⟨r₂, h₂, h⟩ := Option.bind_eq_some_iff.mp h
    cases h
    obtain rfl := literal_some h₁
    have hblank : r₁.dropWhile Char.isDigit = " ".toList ++ r₂ := literal_some h₂
    have htail : first (concat [lit " ", field dot]) (r₁.dropWhile Char.isDigit) =
        some ([r₂.takeWhile dot], r₂.dropWhile dot) := by
      rw [hblank]
      exact first_chars_then (first_field_any dot r₂)
    refine ⟨_, reads_of_first (first_chars_then (first_token htail)), ?_⟩
    rw [dot_eq]
    rfl
  · obtain ⟨w₁, rfl, h₁⟩ := reads_chars_then hu
    obtain ⟨payload, w₂, g₂, rfl, -, hpayload, h₂⟩ := reads_group_then rfl h₁
    obtain ⟨w₃, rfl, -⟩ := reads_chars_then h₂
    have hstop : stops Char.isDigit (" ".toList ++ (w₃ ++ rest)) = true := rfl
    simp only [fmtpReg, List.append_assoc, literal_append, Option.bind_eq_bind, Option.bind_some,
      token_append (lang_many.mp hpayload) hstop]
    exact Option.some_ne_none _

/-- `payloadToken`, and what the engine does there. -/
theorem first_payload_token {k : Regex} {rest : List Char}
    (h : first k (payloadToken s).2 = some (g, rest)) :
    first (.seq payloadField k) s = some ((payloadToken s).1.toList :: g, rest) := by
  unfold payloadToken at h ⊢
  split at h
  · exact first_seq (first_group (u := "*".toList) (first_left (first_chars "*".toList _))) h
  · rename_i hstar
    have hnone : run (lit "*") s = [] := by
      refine run_chars_of_not_begin fun hbegin => ?_
      obtain ⟨rest', rfl⟩ := hbegin
      exact hstar rest' rfl
    have hsplit : s.takeWhile Char.isDigit ++ s.dropWhile Char.isDigit = s :=
      List.takeWhile_append_dropWhile
    have hgroup : first payloadField (s.takeWhile Char.isDigit ++ s.dropWhile Char.isDigit) =
        some ([s.takeWhile Char.isDigit], s.dropWhile Char.isDigit) :=
      first_group (first_right (hsplit.symm ▸ hnone) (first_many
        (fun _ hc => List.mem_takeWhile_imp hc) (head_of_stops (stops_dropWhile Char.isDigit s))))
    rw [hsplit] at hgroup
    rw [token, String.toList_ofList]
    exact first_seq hgroup h

theorem payloadToken_append {u : List Char} (hu : Lang (.alt (lit "*") (.many Char.isDigit)) u)
    (hs : stops Char.isDigit s = true) (hstar : s.head? ≠ some '*') :
    payloadToken (u ++ s) = (String.ofList u, s) := by
  rcases lang_alt.mp hu with hu | hu
  · rw [lang_chars.mp hu]
    rfl
  · rw [← token_append (lang_many.mp hu) hs]
    unfold payloadToken
    split
    · rename_i rest heq
      cases u with
      | nil =>
        rw [List.nil_append] at heq
        rw [heq] at hstar
        exact absurd rfl hstar
      | cons c u =>
        have hc := lang_many.mp hu c (List.mem_cons_self ..)
        obtain rfl : c = '*' := (List.cons.inj heq).1
        exact absurd hc (by decide)
    · rfl

/-- `spaced`, at the end of a line. -/
theorem first_spaced (p : Char → Bool) (s : List Char) :
    ∃ rest, first (opt (.seq (lit " ") (field p))) s = some ([(spaced p s).toList], rest) := by
  unfold spaced
  split
  · rename_i rest
    rw [token, String.toList_ofList]
    exact ⟨_, first_opt (first_lit_then " " (first_field_any p rest))⟩
  · rename_i hblank
    refine ⟨s, first_opt_skip (run_seq_of_nil (run_chars_of_not_begin fun hbegin => ?_))⟩
    obtain ⟨rest, rfl⟩ := hbegin
    exact hblank rest rfl

theorem trrInt_same : SameReads trrIntReg rtcpFbTrrIntRule := by
  refine sameReads (fun content groups h => ?_) (fun u g rest hu => ?_) rfl
  · obtain ⟨r₁, h₁, h⟩ := Option.bind_eq_some_iff.mp h
    obtain ⟨r₂, h₂, h⟩ := Option.bind_eq_some_iff.mp h
    cases h
    obtain rfl := literal_some h₁
    have htail : first (concat [lit " trr-int ", field Char.isDigit]) (payloadToken r₁).2 =
        some ([r₂.takeWhile Char.isDigit], r₂.dropWhile Char.isDigit) := by
      rw [literal_some h₂]
      exact first_chars_then (first_field_any Char.isDigit r₂)
    refine ⟨_, reads_of_first (first_chars_then (first_payload_token htail)), ?_⟩
    rw [List.map_cons, String.ofList_toList]
    rfl
  · obtain ⟨w₁, rfl, h₁⟩ := reads_chars_then hu
    obtain ⟨payload, w₂, g₂, rfl, -, hpayload, h₂⟩ := reads_group_then rfl h₁
    obtain ⟨w₃, rfl, -⟩ := reads_chars_then h₂
    have htoken : payloadToken (payload ++ (" trr-int ".toList ++ (w₃ ++ rest))) =
        (String.ofList payload, " trr-int ".toList ++ (w₃ ++ rest)) :=
      payloadToken_append hpayload rfl (fun h => by cases h)
    simp only [trrIntReg, List.append_assoc, literal_append, Option.bind_eq_bind, Option.bind_some,
      htoken]
    exact Option.some_ne_none _

theorem rtcpFb_same : SameReads rtcpFbReg rtcpFbRule := by
  refine sameReads (fun content groups h => ?_) (fun u g rest hu => ?_) rfl
  · obtain ⟨r₁, h₁, h⟩ := Option.bind_eq_some_iff.mp h
    obtain ⟨r₂, h₂, h⟩ := Option.bind_eq_some_iff.mp h
    cases h
    obtain rfl := literal_some h₁
    obtain ⟨rest, hrest⟩ := first_spaced feedbackChar (r₂.dropWhile feedbackChar)
    have htail : first (concat [lit " ", field feedbackChar, opt (concat [lit " ",
        field feedbackChar])]) (payloadToken r₁).2 = some ([r₂.takeWhile feedbackChar,
          (spaced feedbackChar (r₂.dropWhile feedbackChar)).toList], rest) := by
      rw [literal_some h₂]
      exact first_chars_then (first_token hrest)
    refine ⟨_, reads_of_first (first_chars_then (first_payload_token htail)), ?_⟩
    simp only [List.map_cons, List.map_nil, String.ofList_toList]
    rfl
  · obtain ⟨w₁, rfl, h₁⟩ := reads_chars_then hu
    obtain ⟨payload, w₂, g₂, rfl, -, hpayload, h₂⟩ := reads_group_then rfl h₁
    obtain ⟨w₃, rfl, -⟩ := reads_chars_then h₂
    have htoken : payloadToken (payload ++ (" ".toList ++ (w₃ ++ rest))) =
        (String.ofList payload, " ".toList ++ (w₃ ++ rest)) :=
      payloadToken_append hpayload rfl (fun h => by cases h)
    simp only [rtcpFbReg, List.append_assoc, literal_append, Option.bind_eq_bind, Option.bind_some,
      htoken]
    exact Option.some_ne_none _

/-! ### Rates and encodings -/

/-- What is left behind some of the characters begins with another one of them, or not at all. -/
theorem mem_spans_cases {rest : List Char} (h : rest ∈ spans p s) :
    rest = s.dropWhile p ∨ ∃ c cs, rest = c :: cs ∧ p c = true := by
  induction s with
  | nil => exact Or.inl (List.mem_singleton.mp h)
  | cons c s ih =>
    rw [spans] at h
    split_ifs at h with hc
    · rw [List.dropWhile_cons_of_pos hc]
      rcases List.mem_append.mp h with h | h
      · exact ih h
      · exact Or.inr ⟨c, s, List.mem_singleton.mp h, hc⟩
    · rw [List.dropWhile_cons_of_neg hc]
      exact Or.inl (List.mem_singleton.mp h)

theorem slashed_none (h : ∀ rest, s.dropWhile isSpace ≠ '/' :: rest) : slashed p s = ("", s) := by
  unfold slashed
  split
  · rename_i rest heq
    exact absurd heq (h rest)
  · rfl

theorem slashed_some {rest : List Char} (h : s.dropWhile isSpace = '/' :: rest) :
    slashed p s = token p rest := by
  unfold slashed
  rw [h]
  rfl

theorem run_slash {k : Regex} (h : ∀ rest, s.dropWhile isSpace ≠ '/' :: rest) :
    run (.seq (.many isSpace) (.seq (lit "/") k)) s = [] := by
  rw [run_seq, List.flatMap_eq_nil_iff]
  intro m hm
  obtain ⟨rest, hrest, rfl⟩ := List.mem_map.mp hm
  have hnone : run (.seq (lit "/") k) rest = [] := by
    refine run_seq_of_nil (run_chars_of_not_begin fun hbegin => ?_)
    obtain ⟨tail, rfl⟩ := hbegin
    rcases mem_spans_cases hrest with heq | ⟨c, cs, heq, hc⟩
    · exact h tail heq.symm
    · obtain rfl : '/' = c := (List.cons.inj heq).1
      exact absurd hc (by decide)
  rw [hnone, List.map_nil]

theorem first_slash {k : Regex} {rest : List Char} (h : s.dropWhile isSpace = '/' :: rest)
    {m : List (List Char) × List Char} (hk : first k rest = some m) :
    first (.seq (.many isSpace) (.seq (lit "/") k)) s = some m := by
  have hspaces := first_many_then (k := .seq (lit "/") k) (u := s.takeWhile isSpace)
    (s := '/' :: rest) (fun _ hc => List.mem_takeWhile_imp hc) rfl
    (first_lit_then "/" hk)
  rwa [← h, List.takeWhile_append_dropWhile] at hspaces

/-- `slashed`, and what the engine does there. -/
theorem first_encoding (s : List Char) : ∃ rest, first (opt (concat [.many isSpace, lit "/",
    field nonSpace])) s = some ([(slashed nonSpace s).1.toList], rest) := by
  by_cases h : ∀ rest, s.dropWhile isSpace ≠ '/' :: rest
  · rw [slashed_none h]
    exact ⟨s, first_opt_skip (run_slash h)⟩
  · obtain ⟨rest, hrest⟩ := not_forall_not.mp h
    rw [slashed_some hrest, token, String.toList_ofList]
    exact ⟨_, first_opt (first_slash hrest (first_field_any nonSpace rest))⟩

theorem first_rate (s : List Char) : ∃ rest, first (opt (concat [.many isSpace, lit "/",
    field Char.isDigit, opt (concat [.many isSpace, lit "/", field nonSpace])])) s =
      some ([(slashed Char.isDigit s).1.toList,
        (slashed nonSpace (slashed Char.isDigit s).2).1.toList], rest) := by
  by_cases h : ∀ rest, s.dropWhile isSpace ≠ '/' :: rest
  · rw [slashed_none h, slashed_none h]
    exact ⟨s, first_opt_skip (run_slash h)⟩
  · obtain ⟨rest, hrest⟩ := not_forall_not.mp h
    obtain ⟨rest', hrest'⟩ := first_encoding (rest.dropWhile Char.isDigit)
    rw [slashed_some hrest, token, String.toList_ofList]
    exact ⟨rest', first_opt (first_slash hrest (first_token hrest'))⟩

theorem rtpmap_same : SameReads rtpmapReg rtpRule := by
  refine sameReads (fun content groups h => ?_) (fun u g rest hu => ?_) rfl
  · obtain ⟨r₁, h₁, h⟩ := Option.bind_eq_some_iff.mp h
    obtain ⟨r₂, h₂, h⟩ := Option.bind_eq_some_iff.mp h
    cases h
    obtain rfl := literal_some h₁
    have hblank : r₁.dropWhile Char.isDigit = " ".toList ++ r₂ := literal_some h₂
    obtain ⟨rest, hrest⟩ := first_rate (r₂.dropWhile codecChar)
    have htail : first (concat [lit " ", field codecChar, opt (concat [.many isSpace, lit "/",
        field Char.isDigit, opt (concat [.many isSpace, lit "/", field nonSpace])])])
        (r₁.dropWhile Char.isDigit) = some (r₂.takeWhile codecChar ::
          [(slashed Char.isDigit (r₂.dropWhile codecChar)).1.toList,
            (slashed nonSpace (slashed Char.isDigit (r₂.dropWhile codecChar)).2).1.toList], rest) := by
      rw [hblank]
      exact first_chars_then (first_token hrest)
    refine ⟨_, reads_of_first (first_chars_then (first_token htail)), ?_⟩
    simp only [List.map_cons, List.map_nil, String.ofList_toList]
    rfl
  · obtain ⟨w₁, rfl, h₁⟩ := reads_chars_then hu
    obtain ⟨payload, w₂, g₂, rfl, -, hpayload, h₂⟩ := reads_group_then rfl h₁
    obtain ⟨w₃, rfl, -⟩ := reads_chars_then h₂
    have hstop : stops Char.isDigit (" ".toList ++ (w₃ ++ rest)) = true := rfl
    simp only [rtpmapReg, List.append_assoc, literal_append, Option.bind_eq_bind, Option.bind_some,
      token_append (lang_many.mp hpayload) hstop]
    exact Option.some_ne_none _

/-! ### Extensions -/

theorem first_token1 {k : Regex} {rest : List Char} (hne : s.takeWhile p ≠ [])
    (h : first k (s.dropWhile p) = some (g, rest)) :
    first (.seq (.group (many1 p)) k) s = some (s.takeWhile p :: g, rest) := by
  have hfirst := first_field1_then ⟨hne, fun _ hc => List.mem_takeWhile_imp hc⟩
    (stops_dropWhile p s) h
  rwa [List.takeWhile_append_dropWhile] at hfirst

/-- `directionToken`, in front of a blank. -/
theorem first_direction {k : Regex} {r rest : List Char} (hblank : (directionToken s).2 = ' ' :: r)
    (h : first k (directionToken s).2 = some (g, rest)) :
    first (.seq (opt (concat [lit "/", .group (many1 isWord)])) k) s =
      some ((directionToken s).1.toList :: g, rest) := by
  unfold directionToken at hblank h ⊢
  split at h
  · rename_i rest'
    by_cases hempty : (token isWord rest').1 = ""
    · change (if (token isWord rest').1 = "" then ("", '/' :: rest') else token isWord rest').2 =
        ' ' :: r at hblank
      rw [if_pos hempty] at hblank
      cases hblank
    · simp only [if_neg hempty] at h ⊢
      have hne : rest'.takeWhile isWord ≠ [] := by
        intro hnil
        refine hempty ?_
        rw [token, hnil]
      have hgroup : first (.group (many1 isWord)) rest' =
          some ([rest'.takeWhile isWord], rest'.dropWhile isWord) := by
        have hfield := first_field1 ⟨hne, fun _ hc => List.mem_takeWhile_imp hc⟩
          (stops_dropWhile isWord rest')
        rwa [List.takeWhile_append_dropWhile] at hfield
      rw [token, String.toList_ofList]
      exact first_opt_then (first_lit_then "/" hgroup) h
  · rename_i hslash
    refine first_skip_then (run_seq_of_nil (run_chars_of_not_begin fun hbegin => ?_)) h
    obtain ⟨rest', rfl⟩ := hbegin
    exact hslash rest' rfl

theorem encryptUri_blank : "urn:ietf:params:rtp-hdrext:encrypt ".toList =
    encryptUri.toList ++ [' '] := by decide

/-- The rest of an extension, behind its direction. -/
theorem first_uri (s : List Char) : ∃ rest, first (concat [
    opt (concat [lit " ", .group (lit encryptUri)]), lit " ", field nonSpace,
    opt (concat [lit " ", field nonSpace])]) (' ' :: s) = some (
      match literal "urn:ietf:params:rtp-hdrext:encrypt " s with
      | some r => [encryptUri.toList, r.takeWhile nonSpace,
          (spaced nonSpace (r.dropWhile nonSpace)).toList]
      | none => [[], s.takeWhile nonSpace, (spaced nonSpace (s.dropWhile nonSpace)).toList],
      rest) := by
  have hlast : ∀ r, ∃ rest, first (concat [lit " ", field nonSpace, opt (concat [lit " ",
      field nonSpace])]) (' ' :: r) = some ([r.takeWhile nonSpace,
        (spaced nonSpace (r.dropWhile nonSpace)).toList], rest) := by
    intro r
    obtain ⟨rest, hrest⟩ := first_spaced nonSpace (r.dropWhile nonSpace)
    exact ⟨rest, first_lit_then " " (first_token hrest)⟩
  cases hliteral : literal "urn:ietf:params:rtp-hdrext:encrypt " s with
  | some r =>
    obtain rfl := literal_some hliteral
    obtain ⟨rest, hrest⟩ := hlast r
    have hsplit : "urn:ietf:params:rtp-hdrext:encrypt ".toList ++ r =
        encryptUri.toList ++ ' ' :: r := by
      rw [encryptUri_blank, List.append_assoc]
      rfl
    have hgroup : first (.group (lit encryptUri)) (encryptUri.toList ++ ' ' :: r) =
        some ([encryptUri.toList], ' ' :: r) := first_group (first_chars encryptUri.toList _)
    rw [hsplit]
    exact ⟨rest, first_opt_then (first_lit_then " " hgroup) hrest⟩
  | none =>
    obtain ⟨rest, hrest⟩ := hlast s
    refine ⟨rest, first_back_then (fun m hm => run_seq_of_nil (run_chars_of_not_begin ?_)) hrest⟩
    rintro ⟨tail, htail⟩
    obtain ⟨u, heq, hu⟩ := reads_of_mem_run hm
    obtain ⟨w, rfl, hw⟩ := reads_chars_then hu
    obtain ⟨-, hencrypt⟩ := reads_group rfl hw
    rw [lang_chars.mp hencrypt, ← htail] at heq
    have hs : s = "urn:ietf:params:rtp-hdrext:encrypt ".toList ++ tail := by
      rw [encryptUri_blank, List.append_assoc]
      exact (List.cons.inj heq).2
    rw [hs, literal_append] at hliteral
    cases hliteral

theorem ext_same : SameReads extmapReg extRule := by
  refine sameReads (fun content groups h => ?_) (fun u g rest hu => ?_) rfl
  · obtain ⟨r₁, h₁, h⟩ := Option.bind_eq_some_iff.mp h
    dsimp only at h
    split_ifs at h with hempty
    obtain ⟨r₂, h₂, hgroups⟩ := Option.bind_eq_some_iff.mp h
    obtain rfl := literal_some h₁
    have hblank : (directionToken (r₁.dropWhile Char.isDigit)).2 = ' ' :: r₂ := literal_some h₂
    have hne : r₁.takeWhile Char.isDigit ≠ [] := by
      intro hnil
      refine hempty ?_
      rw [token, hnil]
    obtain ⟨rest, huri⟩ := first_uri r₂
    rw [← hblank] at huri
    have hfirst := first_lit_then "extmap:"
      (first_token1 hne (first_direction hblank huri))
    refine ⟨_, reads_of_first hfirst, ?_⟩
    rw [← Option.some.inj hgroups]
    cases literal "urn:ietf:params:rtp-hdrext:encrypt " r₂ with
    | none =>
      simp only [List.map_cons, List.map_nil, String.ofList_toList]
      rfl
    | some r =>
      simp only [List.map_cons, List.map_nil, String.ofList_toList]
      rfl
  · obtain ⟨w₁, rfl, h₁⟩ := reads_chars_then hu
    obtain ⟨value, w₂, g₂, rfl, -, hvalue, h₂⟩ := reads_group_then rfl h₁
    obtain ⟨v₃, w₃, g₃, g₃', rfl, -, hv₃, h₃⟩ := reads_seq h₂
    obtain ⟨v₄, w₄, g₄, g₄', rfl, -, hv₄, h₄⟩ := reads_seq h₃
    obtain ⟨w₅, rfl, -⟩ := reads_chars_then h₄
    obtain ⟨e, -, hencrypt⟩ := reads_maybe rfl hv₄
    obtain ⟨d, -, hdirection⟩ := reads_maybe rfl hv₃
    obtain ⟨hne, hdigits⟩ := lang_many1.mp hvalue
    obtain ⟨t, ht⟩ : ∃ t, v₄ ++ (" ".toList ++ w₅) ++ rest = ' ' :: t := by
      rcases hencrypt with ⟨rfl, -⟩ | ⟨rfl, -⟩
      · exact ⟨w₅ ++ rest, rfl⟩
      · exact ⟨_, rfl⟩
    have htoken : token Char.isDigit (value ++ (v₃ ++ ' ' :: t)) =
        (String.ofList value, v₃ ++ ' ' :: t) := by
      refine token_append hdigits ?_
      rcases hdirection with ⟨rfl, -⟩ | ⟨rfl, -⟩ <;> rfl
    have hdir : (directionToken (v₃ ++ ' ' :: t)).2 = ' ' :: t := by
      rcases hdirection with ⟨rfl, -⟩ | ⟨rfl, hd⟩
      · rfl
      · obtain ⟨hd, hword⟩ := lang_many1.mp hd
        have hnext : token isWord (d ++ ' ' :: t) = (String.ofList d, ' ' :: t) :=
          token_append hword rfl
        have hempty : String.ofList d ≠ "" := ofList_ne_empty hd
        change (if (token isWord (d ++ ' ' :: t)).1 = "" then _ else token isWord (d ++ ' ' :: t)).2 = _
        rw [hnext, if_neg hempty]
    have htext : "extmap:".toList ++ (value ++ (v₃ ++ (v₄ ++ (" ".toList ++ w₅)))) ++ rest =
        "extmap:".toList ++ (value ++ (v₃ ++ ' ' :: t)) := by
      rw [← ht]
      simp only [List.append_assoc]
    have hliteral : literal " " (' ' :: t) = some t := literal_append " " t
    rw [htext]
    simp only [extmapReg, literal_append, Option.bind_eq_bind, Option.bind_some, htoken,
      if_neg (ofList_ne_empty hne), hdir, hliteral]
    exact Option.some_ne_none _

/-! ### The line of a section -/

/-- `numPortsToken`, in front of a blank. -/
theorem first_numPorts {k : Regex} {r rest : List Char} (hblank : (numPortsToken s).2 = ' ' :: r)
    (h : first k (numPortsToken s).2 = some (g, rest)) :
    first (.seq (opt (concat [lit "/", field Char.isDigit])) k) s =
      some ((numPortsToken s).1.toList :: g, rest) := by
  unfold numPortsToken at hblank h ⊢
  split at h
  · rename_i rest'
    have hfield := first_field_any Char.isDigit rest'
    simp only [token] at h ⊢
    rw [String.toList_ofList]
    exact first_opt_then (first_lit_then "/" hfield) h
  · rename_i hslash
    refine first_skip_then (run_seq_of_nil (run_chars_of_not_begin fun hbegin => ?_)) h
    obtain ⟨rest', rfl⟩ := hbegin
    exact hslash rest' rfl

theorem media_same : SameReads mediaReg mediaRule := by
  refine sameReads (fun content groups h => ?_) (fun u g rest hu => ?_) rfl
  · obtain ⟨r₁, h₁, hrest⟩ := Option.bind_eq_some_iff.mp h
    obtain ⟨r₂, h₂, hgroups⟩ := Option.bind_eq_some_iff.mp hrest
    have hblank₁ : content.dropWhile isWord = " ".toList ++ r₁ := literal_some h₁
    have hblank₂ : (numPortsToken (r₁.dropWhile Char.isDigit)).2 = ' ' :: r₂ := literal_some h₂
    obtain ⟨rest, hspaced⟩ := first_spaced dot (r₂.dropWhile protocolChar)
    have hprotocol : first (concat [lit " ", field protocolChar, opt (concat [lit " ", field dot])])
        (numPortsToken (r₁.dropWhile Char.isDigit)).2 = some ([r₂.takeWhile protocolChar,
          (spaced dot (r₂.dropWhile protocolChar)).toList], rest) := by
      rw [hblank₂]
      exact first_lit_then " " (first_token hspaced)
    have hport := first_token (p := Char.isDigit) (first_numPorts hblank₂ hprotocol)
    have htail : first (concat [lit " ", field Char.isDigit, opt (concat [lit "/",
        field Char.isDigit]), lit " ", field protocolChar, opt (concat [lit " ", field dot])])
        (content.dropWhile isWord) = some ([r₁.takeWhile Char.isDigit,
          (numPortsToken (r₁.dropWhile Char.isDigit)).1.toList, r₂.takeWhile protocolChar,
          (spaced dot (r₂.dropWhile protocolChar)).toList], rest) := by
      rw [hblank₁]
      exact first_chars_then hport
    refine ⟨_, reads_of_first (first_token htail), ?_⟩
    rw [← Option.some.inj hgroups, dot_eq]
    simp only [List.map_cons, List.map_nil, String.ofList_toList]
    rfl
  · obtain ⟨type, w₁, g₁, rfl, -, htype, h₁⟩ := reads_group_then rfl hu
    obtain ⟨w₂, rfl, h₂⟩ := reads_chars_then h₁
    obtain ⟨port, w₃, g₃, rfl, -, hport, h₃⟩ := reads_group_then rfl h₂
    obtain ⟨v₄, w₄, g₄, g₄', rfl, -, hv₄, h₄⟩ := reads_seq h₃
    obtain ⟨w₅, rfl, -⟩ := reads_chars_then h₄
    obtain ⟨n, -, hnumPorts⟩ := reads_maybe rfl hv₄
    have hblank : (numPortsToken (v₄ ++ ' ' :: (w₅ ++ rest))).2 = ' ' :: (w₅ ++ rest) := by
      rcases hnumPorts with ⟨rfl, -⟩ | ⟨rfl, hn⟩
      · rfl
      · have hnext : token Char.isDigit (n ++ ' ' :: (w₅ ++ rest)) =
            (String.ofList n, ' ' :: (w₅ ++ rest)) := token_append (lang_many.mp hn) rfl
        change (token Char.isDigit (n ++ ' ' :: (w₅ ++ rest))).2 = _
        rw [hnext]
    have hstop : stops Char.isDigit (v₄ ++ ' ' :: (w₅ ++ rest)) = true := by
      rcases hnumPorts with ⟨rfl, -⟩ | ⟨rfl, -⟩ <;> rfl
    have htext : type ++ (" ".toList ++ (port ++ (v₄ ++ (" ".toList ++ w₅)))) ++ rest =
        type ++ (" ".toList ++ (port ++ (v₄ ++ ' ' :: (w₅ ++ rest)))) := by
      simp only [List.append_assoc]
      rfl
    have htoken : token isWord (type ++ (" ".toList ++ (port ++ (v₄ ++ ' ' :: (w₅ ++ rest))))) =
        (String.ofList type, " ".toList ++ (port ++ (v₄ ++ ' ' :: (w₅ ++ rest)))) :=
      token_append (lang_many.mp htype) rfl
    have hliteral : literal " " (' ' :: (w₅ ++ rest)) = some (w₅ ++ rest) := literal_append " " _
    rw [htext]
    simp only [mediaReg, htoken, literal_append, Option.bind_eq_bind, Option.bind_some,
      token_append (lang_many.mp hport) hstop, hblank, hliteral]
    exact Option.some_ne_none _

end MediasoupClient.Sdptransform
