import MediasoupClient.Sdptransform.Lines

/-! The lines of attributes (json/grammar.cpp, `a=`), read again as what they have been printed of.

        rule            a line that is printed              what is asked for
        rtcp            rtcp:9 IN IP4 0.0.0.0               netType and ipVer only with an address
        candidates      candidate:... typ host generation 0 network-id 3
                                                            raddr with rport, and generation with
                                                            network-id and network-cost
        ssrcs           ssrc:1 cname:x                      attribute
        ext             extmap:1 urn:... urn:... config     encrypt-uri with a uri that looks like it
        simulcast       simulcast:send 1 recv 2             dir2 and list2, both or none
        imageattrs      imageattr:97 send [..] recv [..]    dir2 and attrs2, both or none -/

namespace MediasoupClient.Sdptransform
open Lib Lib.Regex Sdp

variable {pf : Platform} {dump : Json → String} {o : Json} {g : List (List Char)}

/-! ### Families -/

theorem text_line {rule : Rule} (hreg : rule.reg = ⟨false, field dot⟩)
    (hformat : rule.format = .format "%s") (hg : rule.reg.body.Fits g) :
    rule.Reads (rule.line o g) g := by
  rw [hreg] at hg
  rcases hg with _ | ⟨h, _ | _⟩
  rename_i t
  have hline : rule.line o [t] = t ++ [] := (line_format rule hformat).trans rfl
  have hfirst : first rule.reg.body (t ++ []) = some ([t], []) := by
    rw [hreg]
    exact first_last (lang_many.mp h)
  rw [hline]
  exact reads_of_first hfirst

theorem valueRule_line_eq {name pre : String} {p : Char → Bool} {type : ValueType}
    (hpre : '%' ∉ pre.toList) (t : List Char) :
    (valueRule name pre p type).line o [t] = pre.toList ++ (t ++ []) := by
  rw [line_format (valueRule name pre p type) rfl, String.toList_append, fill_literal hpre,
    List.nil_append]
  split_ifs <;> rfl

theorem valueRule_line {name pre : String} {p : Char → Bool} {type : ValueType}
    (hpre : '%' ∉ pre.toList) (hg : (valueRule name pre p type).reg.body.Fits g) :
    (valueRule name pre p type).Reads ((valueRule name pre p type).line o g) g := by
  rcases hg with _ | ⟨h, _ | _⟩
  rw [valueRule_line_eq hpre]
  exact reads_of_first <| first_chars_then <| first_last (lang_many.mp h)

theorem flagRule_line {name : String} {flags : List String} (hne : flags ≠ [])
    (hunlike : unlike flags = true) (hg : (flagRule name flags).reg.body.Fits g) :
    (flagRule name flags).Reads ((flagRule name flags).line o g) g := by
  obtain ⟨t, rfl, h⟩ := fits_oneOf hg
  have hline : (flagRule name flags).line o [t] = t ++ [] :=
    (line_format (flagRule name flags) rfl).trans rfl
  rw [hline]
  exact reads_of_first <| first_oneOf hne hunlike h []

/-! ### Codecs -/

theorem rtp_line (ho : Shows pf dump rtpRule o g) (hg : rtpRule.reg.body.Fits g) :
    rtpRule.Reads (rtpRule.line o g) g := by
  rcases hg with _ | ⟨h₁, _ | ⟨h₂, _ | ⟨h₃, _ | ⟨h₄, _ | _⟩⟩⟩⟩
  rename_i payload codec rate encoding
  have hrate := ho.hasValue 2 "rate" rfl rfl
  have hencoding := ho.hasValue 3 "encoding" rfl rfl
  have h₄ : ∀ c ∈ encoding, nonSpace c = true := chars_of (h₄.elim Or.inl id)
  -- the rate is in front of the encoding, also if there is none
  cases encoding with
  | cons c cs =>
    have hline : rtpRule.line o [payload, codec, rate, c :: cs] = "rtpmap:".toList ++ (payload ++
        (" ".toList ++ (codec ++ ("/".toList ++ (rate ++ ("/".toList ++ (c :: cs ++ []))))))) := by
      rw [line_formatFunc rtpRule rfl, hencoding, if_filled]
      rfl
    rw [hline]
    exact reads_of_first <| first_chars_then <| first_field_then (lang_many.mp h₁) rfl <|
      first_chars_then <| first_field_then (lang_many.mp h₂) rfl <| first_opt <|
      first_none_then rfl <| first_chars_then <| first_field_then (chars_of h₃) rfl <| first_opt <|
      first_none_then rfl <| first_chars_then <| first_last h₄
  | nil =>
    cases rate with
    | nil =>
      have hline : rtpRule.line o [payload, codec, [], []] = "rtpmap:".toList ++ (payload ++
          (" ".toList ++ (codec ++ []))) := by
        rw [line_formatFunc rtpRule rfl, hencoding, if_blank, hrate, if_blank]
        rfl
      rw [hline]
      exact reads_of_first <| first_chars_then <| first_field_then (lang_many.mp h₁) rfl <|
        first_chars_then <| first_field_then (lang_many.mp h₂) rfl <| first_opt_skip rfl
    | cons c cs =>
      have hline : rtpRule.line o [payload, codec, c :: cs, []] = "rtpmap:".toList ++ (payload ++
          (" ".toList ++ (codec ++ ("/".toList ++ (c :: cs ++ []))))) := by
        rw [line_formatFunc rtpRule rfl, hencoding, if_blank, hrate, if_filled]
        rfl
      rw [hline]
      exact reads_of_first <| first_chars_then <| first_field_then (lang_many.mp h₁) rfl <|
        first_chars_then <| first_field_then (lang_many.mp h₂) rfl <| first_opt <|
        first_none_then rfl <| first_chars_then <| first_field_then (chars_of h₃) rfl <|
        first_opt_skip rfl

theorem fmtp_line (hg : fmtpRule.reg.body.Fits g) :
    fmtpRule.Reads (fmtpRule.line o g) g := by
  rcases hg with _ | ⟨h₁, _ | ⟨h₂, _ | _⟩⟩
  rename_i payload config
  have hline : fmtpRule.line o [payload, config] = "fmtp:".toList ++ (payload ++ (" ".toList ++
      (config ++ []))) := (line_format fmtpRule rfl).trans rfl
  rw [hline]
  exact reads_of_first <| first_chars_then <| first_field_then (lang_many.mp h₁) rfl <|
    first_chars_then <| first_last (lang_many.mp h₂)

/-- `*`, or a number. -/
theorem first_payload_then {k : Regex} {u s rest : List Char}
    (hu : Lang (.alt (lit "*") (.many Char.isDigit)) u) (hs : stops Char.isDigit s = true)
    (hstar : run (lit "*") s = []) (h : first k s = some (g, rest)) :
    first (.seq payloadField k) (u ++ s) = some (u :: g, rest) := by
  suffices hfirst : first payloadField (u ++ s) = some ([u], s) from first_seq hfirst h
  rcases lang_alt.mp hu with hu | hu
  · rw [lang_chars.mp hu]
    exact first_group (first_left (first_chars "*".toList s))
  · have hdigits := lang_many.mp hu
    have hnone : run (lit "*") (u ++ s) = [] := by
      cases u with
      | nil => exact hstar
      | cons c u =>
        refine run_chars_of_not_begin fun hbegin => ?_
        have hc : '*' = c := (List.cons_prefix_cons.mp hbegin).1
        exact absurd (hdigits c (List.mem_cons_self ..)) (hc ▸ by decide)
    exact first_group (first_right hnone (first_many hdigits (head_of_stops hs)))

theorem rtcpFbTrrInt_line (hg : rtcpFbTrrIntRule.reg.body.Fits g) :
    rtcpFbTrrIntRule.Reads (rtcpFbTrrIntRule.line o g) g := by
  rcases hg with _ | ⟨h₁, _ | ⟨h₂, _ | _⟩⟩
  rename_i payload value
  have hline : rtcpFbTrrIntRule.line o [payload, value] = "rtcp-fb:".toList ++ (payload ++
      (" trr-int ".toList ++ (value ++ []))) := (line_format rtcpFbTrrIntRule rfl).trans rfl
  rw [hline]
  exact reads_of_first <| first_chars_then <| first_payload_then h₁ rfl rfl <|
    first_chars_then <| first_last (lang_many.mp h₂)

theorem rtcpFb_line_eq {payload type subtype : List Char}
    (ho : Shows pf dump rtcpFbRule o [payload, type, subtype]) :
    rtcpFbRule.line o [payload, type, subtype] = "rtcp-fb:".toList ++ (payload ++ (" ".toList ++
      (type ++ maybe " " subtype))) := by
  rw [line_formatFunc rtcpFbRule rfl, ho.hasValue 2 "subtype" rfl rfl]
  cases subtype with
  | nil =>
    rw [if_blank]
    rfl
  | cons c cs =>
    rw [if_filled, ← List.append_nil (maybe " " (c :: cs))]
    rfl

theorem rtcpFb_line (ho : Shows pf dump rtcpFbRule o g) (hg : rtcpFbRule.reg.body.Fits g) :
    rtcpFbRule.Reads (rtcpFbRule.line o g) g := by
  rcases hg with _ | ⟨h₁, _ | ⟨h₂, _ | ⟨h₃, _ | _⟩⟩⟩
  rename_i payload type subtype
  rw [rtcpFb_line_eq ho]
  have hstop : stops feedbackChar (maybe " " subtype) = true := by
    cases subtype <;> rfl
  exact reads_of_first <| first_chars_then <| first_payload_then h₁ rfl rfl <|
    first_chars_then <| first_field_then (lang_many.mp h₂) hstop <|
    first_maybe (by decide) (chars_of h₃)

/-! ### Header extensions -/

theorem ext_line_eq {value direction encrypt uri config : List Char}
    (ho : Shows pf dump extRule o [value, direction, encrypt, uri, config]) :
    extRule.line o [value, direction, encrypt, uri, config] = "extmap:".toList ++ (value ++
      (maybe "/" direction ++ (maybe " " encrypt ++ (" ".toList ++ (uri ++ maybe " " config))))) := by
  rw [line_formatFunc extRule rfl, ho.hasValue 1 "direction" rfl rfl,
    ho.hasValue 2 "encrypt-uri" rfl rfl, ho.hasValue 4 "config" rfl rfl]
  simp only [String.toList_append, List.append_assoc]
  rw [← fill_maybe_last " " " %s" "" (Or.inl rfl) (by decide) rfl config]
  have htail : " ".toList ++ (uri ++ fill [] (if (!config.isEmpty) = true then " %s" else "").toList
      [config]) = fill [] (" %s".toList ++ (if (!config.isEmpty) = true then " %s" else "").toList)
      [uri, config] := rfl
  rw [htail, ← fill_maybe " " " %s" (Or.inl rfl) (by decide),
    ← fill_maybe "/" "/%s" (Or.inl rfl) (by decide)]
  rfl

/-- Behind the uri of an encrypted extension there is a blank only if there is a config. -/
theorem encryptUri_of_prefix {uri config rest : List Char} (huri : ∀ c ∈ uri, nonSpace c = true)
    (h : uri ++ maybe " " config = encryptUri.toList ++ ' ' :: rest) :
    uri = encryptUri.toList ∧ config ≠ [] := by
  have hstop : stops nonSpace (maybe " " config) = true := by
    cases config <;> rfl
  obtain ⟨heq, hconfig⟩ := append_inj_of_stops huri
    (List.all_eq_true.mp (by decide)) hstop rfl h
  refine ⟨heq, ?_⟩
  rintro rfl
  cases hconfig

theorem ext_line (ho : Shows pf dump extRule o g) (hg : extRule.reg.body.Fits g)
    (hkept : o.find "uri" = some (.str encryptUri) → hasValue o "config" = true →
      hasValue o "encrypt-uri" = true) :
    extRule.Reads (extRule.line o g) g := by
  rcases hg with _ | ⟨h₁, _ | ⟨h₂, _ | ⟨h₃, _ | ⟨h₄, _ | ⟨h₅, _ | _⟩⟩⟩⟩⟩
  rename_i value direction encrypt uri config
  rw [ext_line_eq ho]
  have huri := holds_of_shows ho 3 "uri" rfl rfl
  rw [ho.hasValue 4 "config" rfl rfl, ho.hasValue 2 "encrypt-uri" rfl rfl] at hkept
  have hstop : stops nonSpace (maybe " " config) = true := by
    cases config <;> rfl
  have hlast : first (concat [lit " ", field nonSpace, opt (concat [lit " ", field nonSpace])])
      (" ".toList ++ (uri ++ maybe " " config)) = some ([uri, config], []) :=
    first_chars_then <| first_field_then (lang_many.mp h₄) hstop <|
      first_maybe (by decide) (chars_of h₅)
  have hrest : first (concat [opt (concat [lit " ", .group (lit encryptUri)]), lit " ",
      field nonSpace, opt (concat [lit " ", field nonSpace])])
      (maybe " " encrypt ++ (" ".toList ++ (uri ++ maybe " " config))) =
      some ([encrypt, uri, config], []) := by
    rcases h₃ with rfl | h₃
    · -- a uri that looks encrypted is taken back, since no blank is behind it
      refine first_back_then (fun m hm => run_seq_of_nil (run_chars_of_not_begin ?_)) hlast
      rintro ⟨rest, hrest⟩
      obtain ⟨u, heq, hu⟩ := reads_of_mem_run hm
      obtain ⟨v, w, rfl, hv, hw⟩ := lang_seq.mp ⟨_, hu⟩
      rw [lang_chars.mp hv, lang_chars.mp (lang_group.mp hw), List.append_assoc, maybe,
        List.nil_append, List.append_right_inj, ← hrest] at heq
      obtain ⟨rfl, hne⟩ := encryptUri_of_prefix (lang_many.mp h₄) heq
      have hfilled : (!config.isEmpty) = true := by
        rw [List.isEmpty_eq_false_iff.mpr hne]
        rfl
      cases hkept (huri.text (by decide)) hfilled
    · have hencrypt : maybe " " encrypt = " ".toList ++ encryptUri.toList := by
        rw [lang_chars.mp h₃]
        rfl
      rw [hencrypt, lang_chars.mp h₃, List.append_assoc]
      exact first_opt_then (first_chars_then (first_group (first_chars encryptUri.toList _))) hlast
  have hstop' : stops isWord (maybe " " encrypt ++ (" ".toList ++ (uri ++ maybe " " config))) =
      true := stops_maybe (by decide) rfl rfl
  have hslash : run (.chars "/".toList) (maybe " " encrypt ++ (" ".toList ++ (uri ++
      maybe " " config))) = [] := run_chars_maybe rfl rfl
  have hstart : stops Char.isDigit (maybe "/" direction ++ (maybe " " encrypt ++ (" ".toList ++
      (uri ++ maybe " " config)))) = true := stops_maybe (by decide) rfl (stops_maybe (by decide) rfl rfl)
  exact reads_of_first <| first_chars_then <| first_field1_then (lang_many1.mp h₁) hstart <|
    first_maybe1_then (h₂.imp_right lang_many1.mp) hstop' hslash hrest

/-! ### Connections -/

theorem rtcp_line (ho : Shows pf dump rtcpRule o g) (hg : rtcpRule.reg.body.Fits g)
    (hkept : hasValue o "netType" = true → hasValue o "address" = true)
    (hipVer : hasValue o "ipVer" = hasValue o "address") :
    rtcpRule.Reads (rtcpRule.line o g) g := by
  rcases hg with _ | ⟨h₁, _ | ⟨h₂, _ | ⟨h₃, _ | ⟨h₄, _ | _⟩⟩⟩⟩
  rename_i port netType ipVer address
  have haddress := ho.hasValue 3 "address" rfl rfl
  rw [ho.hasValue 1 "netType" rfl rfl, haddress] at hkept
  rw [ho.hasValue 2 "ipVer" rfl rfl, haddress] at hipVer
  cases address with
  | nil =>
    obtain rfl : netType = [] := by
      cases netType with
      | nil => rfl
      | cons c cs => cases hkept rfl
    obtain rfl : ipVer = [] := by
      cases ipVer with
      | nil => rfl
      | cons c cs => cases hipVer
    have hline : rtcpRule.line o [port, [], [], []] = "rtcp:".toList ++ (port ++ []) := by
      rw [line_formatFunc rtcpRule rfl, haddress, if_blank]
      rfl
    rw [hline]
    exact reads_of_first <| first_chars_then <| first_field_then (lang_many.mp h₁) rfl <|
      first_opt_skip rfl
  | cons c cs =>
    have hline : rtcpRule.line o [port, netType, ipVer, c :: cs] = "rtcp:".toList ++ (port ++
        (" ".toList ++ (netType ++ (" IP".toList ++ (ipVer ++ (" ".toList ++
          (c :: cs ++ []))))))) := by
      rw [line_formatFunc rtcpRule rfl, haddress, if_filled]
      rfl
    rw [hline]
    have hdigit : Lang (.char Char.isDigit) ipVer := by
      refine h₃.resolve_left ?_
      rintro rfl
      cases hipVer
    exact reads_of_first <| first_chars_then <| first_field_then (lang_many.mp h₁) rfl <|
      first_opt <| first_chars_then <| first_field_then (chars_of h₂) rfl <| first_chars_then <|
      first_single_then hdigit <| first_chars_then <| first_last (chars_of h₄)

theorem crypto_line (ho : Shows pf dump cryptoRule o g) (hg : cryptoRule.reg.body.Fits g) :
    cryptoRule.Reads (cryptoRule.line o g) g := by
  rcases hg with _ | ⟨h₁, _ | ⟨h₂, _ | ⟨h₃, _ | ⟨h₄, _ | _⟩⟩⟩⟩
  rename_i id suite config sessionConfig
  have hline : cryptoRule.line o [id, suite, config, sessionConfig] = "crypto:".toList ++ (id ++
      (" ".toList ++ (suite ++ (" ".toList ++ (config ++ maybe " " sessionConfig))))) := by
    rw [line_formatFunc cryptoRule rfl, ho.hasValue 3 "sessionConfig" rfl rfl]
    cases sessionConfig with
    | nil =>
      rw [if_blank]
      rfl
    | cons c cs =>
      rw [if_filled, ← List.append_nil (maybe " " (c :: cs))]
      rfl
  rw [hline]
  have hstop : stops nonSpace (maybe " " sessionConfig) = true := by
    cases sessionConfig <;> rfl
  exact reads_of_first <| first_chars_then <| first_field_then (lang_many.mp h₁) rfl <|
    first_chars_then <| first_field_then (lang_many.mp h₂) rfl <| first_chars_then <|
    first_field_then (lang_many.mp h₃) hstop <| first_maybe (by decide) (chars_of h₄)

theorem fingerprint_line (hg : fingerprintRule.reg.body.Fits g) :
    fingerprintRule.Reads (fingerprintRule.line o g) g := by
  rcases hg with _ | ⟨h₁, _ | ⟨h₂, _ | _⟩⟩
  rename_i type hash
  have hline : fingerprintRule.line o [type, hash] = "fingerprint:".toList ++ (type ++
      (" ".toList ++ (hash ++ []))) := (line_format fingerprintRule rfl).trans rfl
  rw [hline]
  exact reads_of_first <| first_chars_then <| first_field_then (lang_many.mp h₁) rfl <|
    first_chars_then <| first_last (lang_many.mp h₂)

/-- `raddr` and `rport` of a candidate. -/
def related (raddr rport : List Char) : List Char :=
  if raddr = [] then [] else " raddr ".toList ++ (raddr ++ (" rport ".toList ++ rport))

/-- The fields behind them. -/
def candidateFields : List (String × (Char → Bool)) := [(" tcptype ", nonSpace),
  (" generation ", Char.isDigit), (" network-id ", Char.isDigit), (" network-cost ", Char.isDigit)]

theorem fill_related (raddr rport format : List Char) (args : List (List Char)) :
    fill [] ((if (!raddr.isEmpty) = true then " raddr %s rport %d" else "%v%v").toList ++ format)
      (raddr :: rport :: args) = related raddr rport ++ fill [] format args := by
  cases raddr with
  | nil =>
    rw [if_blank]
    rfl
  | cons c cs =>
    have hformat : " raddr %s rport %d".toList ++ format =
        " raddr ".toList ++ '%' :: 's' :: (" rport ".toList ++ '%' :: 'd' :: format) := rfl
    have hrport : fill [] (" rport ".toList ++ '%' :: 'd' :: format) (rport :: args) =
        " rport ".toList ++ (rport ++ fill [] format args) :=
      fill_placed " rport " (by decide) (Or.inr rfl) format rport args
    rw [if_filled, hformat]
    calc
      _ = " raddr ".toList ++ (c :: cs ++ fill [] (" rport ".toList ++ '%' :: 'd' :: format)
            (rport :: args)) :=
          fill_placed " raddr " (by decide) (Or.inl rfl) _ (c :: cs) (rport :: args)
      _ = " raddr ".toList ++ (c :: cs ++ (" rport ".toList ++ (rport ++ fill [] format args))) :=
          congrArg (fun t => " raddr ".toList ++ (c :: cs ++ t)) hrport
      _ = related (c :: cs) rport ++ fill [] format args := by
          rw [related, if_neg (List.cons_ne_nil c cs)]
          simp only [List.append_assoc]

theorem candidates_line_eq {foundation component transport priority ip port type raddr rport
    tcptype generation id cost : List Char}
    (ho : Shows pf dump candidatesRule o [foundation, component, transport, priority, ip, port,
      type, raddr, rport, tcptype, generation, id, cost])
    (hgen : generation = [] → id = [] ∧ cost = []) :
    candidatesRule.line o [foundation, component, transport, priority, ip, port, type, raddr,
      rport, tcptype, generation, id, cost] = "candidate:".toList ++ (foundation ++ (" ".toList ++
        (component ++ (" ".toList ++ (transport ++ (" ".toList ++ (priority ++ (" ".toList ++
        (ip ++ (" ".toList ++ (port ++ (" typ ".toList ++ (type ++
        (related raddr rport ++ row candidateFields [tcptype, generation, id, cost]))))))))))))))
        := by
  rw [line_formatFunc candidatesRule rfl, ho.hasValue 7 "raddr" rfl rfl,
    ho.hasValue 9 "tcptype" rfl rfl, ho.hasValue 10 "generation" rfl rfl,
    ho.hasValue 11 "network-id" rfl rfl, ho.hasValue 12 "network-cost" rfl rfl]
  simp only [String.toList_append, List.append_assoc]
  have hnetwork : fill [] ((if (!id.isEmpty) = true then " network-id %d" else "%v").toList ++
      (if (!cost.isEmpty) = true then " network-cost %d" else "%v").toList) [id, cost] =
      maybe " network-id " id ++ maybe " network-cost " cost := by
    rw [fill_maybe " network-id " " network-id %d" (Or.inr rfl) (by decide),
      fill_maybe_last " network-cost " " network-cost %d" "%v" (Or.inr rfl) (by decide) rfl]
  have hgeneration : fill [] ((if (!generation.isEmpty) = true then " generation %d" else
      "").toList ++ ((if (!id.isEmpty) = true then " network-id %d" else "%v").toList ++
      (if (!cost.isEmpty) = true then " network-cost %d" else "%v").toList))
      [generation, id, cost] = maybe " generation " generation ++ (maybe " network-id " id ++
        maybe " network-cost " cost) := by
    cases generation with
    | nil =>
      obtain ⟨rfl, rfl⟩ := hgen rfl
      rw [if_blank, if_blank, if_blank]
      rfl
    | cons c cs =>
      rw [if_filled, ← hnetwork, ← if_filled c cs " generation %d" "%v"]
      exact fill_maybe " generation " " generation %d" (Or.inr rfl) (by decide) ..
  have hrow : row candidateFields [tcptype, generation, id, cost] = maybe " tcptype " tcptype ++
      (maybe " generation " generation ++ (maybe " network-id " id ++
        maybe " network-cost " cost)) := by
    rw [← List.append_nil (maybe " network-cost " cost)]
    rfl
  rw [hrow, ← hgeneration, ← fill_maybe " tcptype " " tcptype %s" (Or.inl rfl) (by decide),
    ← fill_related]
  rfl

theorem candidates_line (ho : Shows pf dump candidatesRule o g)
    (hg : candidatesRule.reg.body.Fits g)
    (hraddr : hasValue o "rport" = true → hasValue o "raddr" = true)
    (hgen : (hasValue o "network-id" || hasValue o "network-cost") = true →
      hasValue o "generation" = true) :
    candidatesRule.Reads (candidatesRule.line o g) g := by
  rcases hg with _ | ⟨h₁, _ | ⟨h₂, _ | ⟨h₃, _ | ⟨h₄, _ | ⟨h₅, _ | ⟨h₆, _ | ⟨h₇, _ | ⟨h₈, _ |
    ⟨h₉, _ | ⟨h₁₀, _ | ⟨h₁₁, _ | ⟨h₁₂, _ | ⟨h₁₃, _ | _⟩⟩⟩⟩⟩⟩⟩⟩⟩⟩⟩⟩⟩
  rename_i foundation component transport priority ip port type raddr rport tcptype generation id
    cost
  have hkept : (raddr = [] → rport = []) ∧ (generation = [] → id = [] ∧ cost = []) := by
    rw [ho.hasValue 8 "rport" rfl rfl, ho.hasValue 7 "raddr" rfl rfl] at hraddr
    rw [ho.hasValue 11 "network-id" rfl rfl, ho.hasValue 12 "network-cost" rfl rfl,
      ho.hasValue 10 "generation" rfl rfl] at hgen
    constructor
    · rintro rfl
      cases rport <;> first | rfl | cases hraddr rfl
    · rintro rfl
      cases id <;> cases cost <;> first | exact ⟨rfl, rfl⟩ | cases hgen rfl
  rw [candidates_line_eq ho hkept.2]
  have hfields : first (concat (candidateFields.map optional))
      (row candidateFields [tcptype, generation, id, cost]) =
      some ([tcptype, generation, id, cost], []) :=
    first_row (by decide) rfl (.cons (chars_of h₁₀) (.cons (chars_of h₁₁) (.cons (chars_of h₁₂)
      (.cons (chars_of h₁₃) .nil))))
  have hrest : first (.seq (opt (concat [lit " raddr ", field nonSpace, lit " rport ",
      field Char.isDigit])) (concat (candidateFields.map optional)))
      (related raddr rport ++ row candidateFields [tcptype, generation, id, cost]) =
      some ([raddr, rport, tcptype, generation, id, cost], []) := by
    cases raddr with
    | nil =>
      rw [hkept.1 rfl]
      exact first_skip_then (run_seq_of_nil (run_row (by decide) rfl _)) hfields
    | cons c cs =>
      rw [related, if_neg (List.cons_ne_nil c cs)]
      simp only [List.append_assoc]
      exact first_opt_then (first_chars_then <| first_field_then (chars_of h₈) rfl <|
        first_chars_then <| first_field (chars_of h₉) (stops_row rfl _)) hfields
  have hstop : stops nonSpace (related raddr rport ++
      row candidateFields [tcptype, generation, id, cost]) = true := by
    cases raddr with
    | nil => exact stops_row rfl _
    | cons c cs => rfl
  exact reads_of_first <| first_chars_then <| first_field_then (lang_many.mp h₁) rfl <|
    first_chars_then <| first_field_then (lang_many.mp h₂) rfl <| first_chars_then <|
    first_field_then (lang_many.mp h₃) rfl <| first_chars_then <|
    first_field_then (lang_many.mp h₄) rfl <| first_chars_then <|
    first_field_then (lang_many.mp h₅) rfl <| first_chars_then <|
    first_field_then (lang_many.mp h₆) rfl <| first_chars_then <|
    first_field_then (lang_many.mp h₇) hstop hrest

/-! ### Sources -/

theorem ssrcs_line (ho : Shows pf dump ssrcsRule o g) (hg : ssrcsRule.reg.body.Fits g)
    (hkept : hasValue o "attribute" = true) :
    ssrcsRule.Reads (ssrcsRule.line o g) g := by
  rcases hg with _ | ⟨h₁, _ | ⟨h₂, _ | ⟨h₃, _ | _⟩⟩⟩
  rename_i id attr value
  have hline : ssrcsRule.line o [id, attr, value] = "ssrc:".toList ++ (id ++ (" ".toList ++
      (attr ++ maybe ":" value))) := by
    rw [line_formatFunc ssrcsRule rfl, if_pos hkept, ho.hasValue 2 "value" rfl rfl,
      ← fill_maybe_last ":" ":%s" "" (Or.inl rfl) (by decide) rfl value, String.toList_append,
      String.toList_append]
    rfl
  rw [hline]
  have hstop : stops feedbackChar (maybe ":" value) = true := by
    cases value <;> rfl
  exact reads_of_first <| first_chars_then <| first_field_then (lang_many.mp h₁) rfl <|
    first_chars_then <| first_field_then (lang_many.mp h₂) hstop <|
    first_maybe (by decide) (chars_of h₃)

theorem ssrcGroups_line (hg : ssrcGroupsRule.reg.body.Fits g) :
    ssrcGroupsRule.Reads (ssrcGroupsRule.line o g) g := by
  rcases hg with _ | ⟨h₁, _ | ⟨h₂, _ | _⟩⟩
  rename_i semantics ssrcs
  have hline : ssrcGroupsRule.line o [semantics, ssrcs] = "ssrc-group:".toList ++ (semantics ++
      (" ".toList ++ (ssrcs ++ []))) := (line_format ssrcGroupsRule rfl).trans rfl
  rw [hline]
  exact reads_of_first <| first_chars_then <| first_field_then (lang_many.mp h₁) rfl <|
    first_chars_then <| first_last (lang_many.mp h₂)

theorem msidSemantic_line (hg : msidSemanticRule.reg.body.Fits g) :
    msidSemanticRule.Reads (msidSemanticRule.line o g) g := by
  rcases hg with _ | ⟨h₁, _ | ⟨h₂, _ | _⟩⟩
  rename_i semantic token
  have hline : msidSemanticRule.line o [semantic, token] = "msid-semantic:".toList ++ (' ' ::
      (semantic ++ (" ".toList ++ (token ++ [])))) := (line_format msidSemanticRule rfl).trans rfl
  rw [hline]
  exact reads_of_first <| first_chars_then <| first_opt_then (first_char rfl _) <|
    first_field_then (lang_many.mp h₁) rfl <| first_chars_then <| first_last (lang_many.mp h₂)

theorem groups_line (hg : groupsRule.reg.body.Fits g) :
    groupsRule.Reads (groupsRule.line o g) g := by
  rcases hg with _ | ⟨h₁, _ | ⟨h₂, _ | _⟩⟩
  rename_i type mids
  have hline : groupsRule.line o [type, mids] = "group:".toList ++ (type ++ (" ".toList ++
      (mids ++ []))) := (line_format groupsRule rfl).trans rfl
  rw [hline]
  exact reads_of_first <| first_chars_then <| first_field_then (lang_many.mp h₁) rfl <|
    first_chars_then <| first_last (lang_many.mp h₂)

theorem sctpmap_line (ho : Shows pf dump sctpmapRule o g) (hg : sctpmapRule.reg.body.Fits g) :
    sctpmapRule.Reads (sctpmapRule.line o g) g := by
  rcases hg with _ | ⟨h₁, _ | ⟨h₂, _ | ⟨h₃, _ | _⟩⟩⟩
  rename_i number app size
  have hline : sctpmapRule.line o [number, app, size] = "sctpmap:".toList ++ (number ++
      (" ".toList ++ (app ++ maybe " " size))) := by
    rw [line_formatFunc sctpmapRule rfl, ho.hasValue 2 "maxMessageSize" rfl rfl]
    cases size with
    | nil =>
      rw [if_blank]
      rfl
    | cons c cs =>
      rw [if_filled, ← List.append_nil (maybe " " (c :: cs))]
      rfl
  rw [hline]
  have hstop : stops nonSpace (maybe " " size) = true := by
    cases size <;> rfl
  exact reads_of_first <| first_chars_then <| first_field1_then (lang_many1.mp h₁) rfl <|
    first_chars_then <| first_field_then (lang_many.mp h₂) hstop <|
    first_maybe (by decide) (chars_of h₃)

theorem xGoogleFlag_line (hg : xGoogleFlagRule.reg.body.Fits g) :
    xGoogleFlagRule.Reads (xGoogleFlagRule.line o g) g := by
  rcases hg with _ | ⟨h, _ | _⟩
  rename_i t
  have hline : xGoogleFlagRule.line o [t] = "x-google-flag:".toList ++ (t ++ []) :=
    (line_format xGoogleFlagRule rfl).trans rfl
  rw [hline]
  exact reads_of_first <| first_chars_then <| first_last (lang_many.mp h)

/-! ### Layers -/

theorem rids_line_eq {id direction params : List Char}
    (ho : Shows pf dump ridsRule o [id, direction, params]) :
    ridsRule.line o [id, direction, params] = "rid:".toList ++ (id ++ (" ".toList ++
      (direction ++ maybe " " params))) := by
  rw [line_formatFunc ridsRule rfl, ho.hasValue 2 "params" rfl rfl]
  cases params with
  | nil =>
    rw [if_blank]
    rfl
  | cons c cs =>
    rw [if_filled, ← List.append_nil (maybe " " (c :: cs))]
    rfl

theorem rids_line (ho : Shows pf dump ridsRule o g) (hg : ridsRule.reg.body.Fits g) :
    ridsRule.Reads (ridsRule.line o g) g := by
  rcases hg with _ | ⟨h₁, _ | ⟨h₂, _ | ⟨h₃, _ | _⟩⟩⟩
  rename_i id direction params
  rw [rids_line_eq ho]
  have hstop : stops isWord (maybe " " params) = true := by
    cases params <;> rfl
  exact reads_of_first <| first_chars_then <| first_field1_then (lang_many1.mp h₁) rfl <|
    first_chars_then <| first_field1_then (lang_many1.mp h₂) hstop <|
    first_maybe (by decide) (chars_of h₃)

/-- `[...]`, up to the bracket in front of a blank. -/
theorem first_bracketed {u s : List Char} (hu : Lang bracketed u) (hs : stops nonSpace s = true) :
    first bracketed (u ++ s) = some ([], s) := by
  obtain ⟨_, w, rfl, hopen, hw⟩ := lang_seq.mp hu
  obtain ⟨x, _, rfl, hx, hclose⟩ := lang_seq.mp hw
  obtain rfl := lang_chars.mp hopen
  obtain rfl := lang_chars.mp hclose
  have hnone : run (lit "]") s = [] := by
    cases s with
    | nil => rfl
    | cons c cs =>
      refine run_chars_of_not_begin fun hbegin => ?_
      have hc : ']' = c := (List.cons_prefix_cons.mp hbegin).1
      subst hc
      cases hs
  rw [List.append_assoc, List.append_assoc]
  exact first_chars_then (first_many1_back (lang_many1.mp hx) rfl hs hnone
    (first_chars "]".toList s))

theorem bracketed_starts {u : List Char} (hu : Lang bracketed u) (s : List Char) :
    ∃ rest, u ++ s = '[' :: rest := by
  obtain ⟨_, w, rfl, hopen, -⟩ := lang_seq.mp hu
  rw [lang_chars.mp hopen]
  exact ⟨w ++ s, rfl⟩

theorem first_again {u s : List Char} (hu : Lang (concat [many1 isSpace, bracketed]) u)
    (hs : stops nonSpace s = true) :
    first (concat [many1 isSpace, bracketed]) (u ++ s) = some ([], s) := by
  obtain ⟨v, w, rfl, hv, hw⟩ := lang_seq.mp hu
  obtain ⟨rest, hrest⟩ := bracketed_starts hw s
  have hstop : stops isSpace (w ++ s) = true := by
    rw [hrest]
    rfl
  rw [List.append_assoc]
  exact first_seq (first_many1 (lang_many1.mp hv).1 (lang_many1.mp hv).2 (head_of_stops hstop))
    (first_bracketed hw hs)

/-- `*`, or a list in brackets, in front of something that is none. -/
theorem first_attrs {u s : List Char} (hu : Lang (.alt (lit "*") (concat [bracketed,
    .star (concat [many1 isSpace, bracketed])])) u) (hs : stops nonSpace s = true)
    (hdone : run (concat [many1 isSpace, bracketed]) s = []) :
    first attrsField (u ++ s) = some ([u], s) := by
  rcases lang_alt.mp hu with hu | hu
  · rw [lang_chars.mp hu]
    exact first_group (first_left (first_chars "*".toList s))
  · obtain ⟨v, w, rfl, hv, hw⟩ := lang_seq.mp hu
    obtain ⟨us, rfl, hus⟩ := lang_star hw
    have hspace : ∀ {t : List Char}, Lang (concat [many1 isSpace, bracketed]) t →
        ∃ c cs, t = c :: cs ∧ isSpace c = true := by
      intro t ht
      obtain ⟨x, y, rfl, hx, -⟩ := lang_seq.mp ht
      obtain ⟨hne, hall⟩ := lang_many1.mp hx
      obtain ⟨c, x, rfl⟩ := List.exists_cons_of_ne_nil hne
      exact ⟨c, x ++ y, rfl, hall c (List.mem_cons_self ..)⟩
    have hQ : ∀ t tail, Lang (concat [many1 isSpace, bracketed]) t →
        stops nonSpace (t ++ tail) = true := by
      intro t tail ht
      obtain ⟨c, cs, rfl, hc⟩ := hspace ht
      rw [List.cons_append, stops, List.head?_cons, Option.all_some, nonSpace, hc]
      rfl
    have hstar : first (.star (concat [many1 isSpace, bracketed])) (us.flatten ++ s) =
        some ([], s) := by
      refine first_star (fun t ht => ?_) hQ (fun t tail ht htail => ⟨_, first_again ht htail⟩) hus hs
        hdone
      obtain ⟨c, cs, rfl, -⟩ := hspace ht
      exact List.cons_ne_nil c cs
    have hstop : stops nonSpace (us.flatten ++ s) = true := by
      cases us with
      | nil => exact hs
      | cons t us =>
        rw [List.flatten_cons, List.append_assoc]
        exact hQ t _ (hus t (List.mem_cons_self ..))
    have hnone : run (lit "*") (v ++ us.flatten ++ s) = [] := by
      obtain ⟨rest, hrest⟩ := bracketed_starts hv (us.flatten ++ s)
      rw [List.append_assoc, hrest]
      rfl
    refine first_group (first_right hnone ?_)
    rw [List.append_assoc]
    exact first_seq (first_bracketed hv hstop) hstar

/-- A number, or `*`. -/
theorem first_pt_then {k : Regex} {u s rest : List Char}
    (hu : Lang (.alt (many1 Char.isDigit) (lit "*")) u) (hs : stops Char.isDigit s = true)
    (h : first k s = some (g, rest)) :
    first (.seq (.group (.alt (many1 Char.isDigit) (lit "*"))) k) (u ++ s) =
      some (u :: g, rest) := by
  suffices hfirst : first (.group (.alt (many1 Char.isDigit) (lit "*"))) (u ++ s) =
      some ([u], s) from first_seq hfirst h
  rcases lang_alt.mp hu with hu | hu
  · exact first_group (first_left (first_many1 (lang_many1.mp hu).1 (lang_many1.mp hu).2
      (head_of_stops hs)))
  · rw [lang_chars.mp hu]
    exact first_group (first_right rfl (first_chars "*".toList s))

theorem stops_attrs {u : List Char} (hu : Lang (.alt (lit "*") (concat [bracketed,
    .star (concat [many1 isSpace, bracketed])])) u) (s : List Char) :
    stops isSpace (u ++ s) = true := by
  rcases lang_alt.mp hu with hu | hu
  · rw [lang_chars.mp hu]
    rfl
  · obtain ⟨v, w, rfl, hv, -⟩ := lang_seq.mp hu
    obtain ⟨rest, hrest⟩ := bracketed_starts hv (w ++ s)
    rw [List.append_assoc, hrest]
    rfl

/-- The second direction of a line, and what it is for. -/
def second (dir list : List Char) : List Char :=
  if dir = [] then [] else ' ' :: (dir ++ ' ' :: (list ++ []))

theorem imageattrs_line_eq {pt dir₁ attrs₁ dir₂ attrs₂ : List Char}
    (ho : Shows pf dump imageattrsRule o [pt, dir₁, attrs₁, dir₂, attrs₂]) :
    imageattrsRule.line o [pt, dir₁, attrs₁, dir₂, attrs₂] = "imageattr:".toList ++ (pt ++
      (' ' :: (dir₁ ++ (' ' :: (attrs₁ ++ second dir₂ attrs₂))))) := by
  rw [line_formatFunc imageattrsRule rfl, ho.hasValue 3 "dir2" rfl rfl]
  cases dir₂ with
  | nil =>
    rw [if_blank]
    rfl
  | cons c cs =>
    rw [if_filled]
    rfl

theorem imageattrs_line (ho : Shows pf dump imageattrsRule o g)
    (hg : imageattrsRule.reg.body.Fits g) (hkept : hasValue o "dir2" = hasValue o "attrs2") :
    imageattrsRule.Reads (imageattrsRule.line o g) g := by
  rcases hg with _ | ⟨h₁, _ | ⟨h₂, _ | ⟨h₃, _ | ⟨h₄, _ | ⟨h₅, _ | _⟩⟩⟩⟩⟩
  rename_i pt dir₁ attrs₁ dir₂ attrs₂
  rw [ho.hasValue 3 "dir2" rfl rfl, ho.hasValue 4 "attrs2" rfl rfl] at hkept
  rw [imageattrs_line_eq ho]
  have hdirs : ∀ {texts : List String} {dir : List Char}, (∀ text ∈ texts, text = "send" ∨
      text = "recv") → texts ≠ [] → Lang (anyOf texts) dir → ∀ s, stops isSpace (dir ++ s) = true ∧
      run (concat [many1 isSpace, bracketed]) (' ' :: (dir ++ s)) = [] := by
    intro texts dir htexts hne hdir s
    obtain ⟨text, ht, rfl⟩ := (lang_anyOf hne).mp hdir
    rcases htexts text ht with rfl | rfl <;> exact ⟨rfl, rfl⟩
  have hdir₁ := fun s => (hdirs (by decide) (by decide) h₂ s).1
  cases dir₂ with
  | nil =>
    obtain rfl : attrs₂ = [] := by
      cases attrs₂ with
      | nil => rfl
      | cons c cs => cases hkept
    exact reads_of_first <| first_chars_then <| first_pt_then h₁ rfl <|
      first_one_then rfl (hdir₁ _) <| first_oneOf_then (by decide) (by decide) h₂ <|
      first_one_then rfl (stops_attrs h₃ []) <|
      first_seq (first_attrs h₃ rfl rfl) (first_opt_skip rfl)
  | cons c cs =>
    have hdir := h₄.resolve_left (List.cons_ne_nil c cs)
    have hattrs := h₅.resolve_left (by
      rintro rfl
      cases hkept)
    obtain ⟨hstop, hdone⟩ := hdirs (by decide) (by decide) hdir (' ' :: (attrs₂ ++ []))
    exact reads_of_first <| first_chars_then <| first_pt_then h₁ rfl <|
      first_one_then rfl (hdir₁ _) <| first_oneOf_then (by decide) (by decide) h₂ <|
      first_one_then rfl (stops_attrs h₃ _) <| first_seq (first_attrs h₃ rfl hdone) <| first_opt <|
      first_one_then rfl hstop <| first_oneOf_then (by decide) (by decide) hdir <|
      first_one_then rfl (stops_attrs hattrs []) (first_attrs hattrs rfl rfl)

theorem simulcast_line_eq {dir₁ list₁ dir₂ list₂ : List Char}
    (ho : Shows pf dump simulcastRule o [dir₁, list₁, dir₂, list₂]) :
    simulcastRule.line o [dir₁, list₁, dir₂, list₂] = "simulcast:".toList ++ (dir₁ ++
      (" ".toList ++ (list₁ ++ second dir₂ list₂))) := by
  rw [line_formatFunc simulcastRule rfl, ho.hasValue 2 "dir2" rfl rfl]
  cases dir₂ with
  | nil =>
    rw [if_blank]
    rfl
  | cons c cs =>
    rw [if_filled]
    rfl

theorem simulcast_line (ho : Shows pf dump simulcastRule o g)
    (hg : simulcastRule.reg.body.Fits g) (hkept : hasValue o "dir2" = hasValue o "list2") :
    simulcastRule.Reads (simulcastRule.line o g) g := by
  rcases hg with _ | ⟨h₁, _ | ⟨h₂, _ | ⟨h₃, _ | ⟨h₄, _ | _⟩⟩⟩⟩
  rename_i dir₁ list₁ dir₂ list₂
  rw [ho.hasValue 2 "dir2" rfl rfl, ho.hasValue 3 "list2" rfl rfl] at hkept
  rw [simulcast_line_eq ho]
  cases dir₂ with
  | nil =>
    obtain rfl : list₂ = [] := by
      cases list₂ with
      | nil => rfl
      | cons c cs => cases hkept
    exact reads_of_first <| first_chars_then <| first_oneOf_then (by decide) (by decide) h₁ <|
      first_chars_then <| first_field1_then (lang_many1.mp h₂) rfl <| first_skip_then rfl first_eol
  | cons c cs =>
    have hdir := h₃.resolve_left (List.cons_ne_nil c cs)
    have hlist : Lang (many1 isListChar) list₂ := by
      refine h₄.resolve_left ?_
      rintro rfl
      cases hkept
    exact reads_of_first <| first_chars_then <| first_oneOf_then (by decide) (by decide) h₁ <|
      first_chars_then <| first_field1_then (lang_many1.mp h₂) rfl <|
      first_opt_then (first_opt_then (first_char rfl _) <|
        first_oneOf_then (by decide) (by decide) hdir <| first_chars_then <|
        first_field1 (lang_many1.mp hlist) rfl) first_eol

theorem simulcast03_line_eq (value : List Char) :
    simulcast03Rule.line o [value] = "simulcast: ".toList ++ (value ++ []) :=
  (line_format simulcast03Rule rfl).trans rfl

theorem simulcast03_line (hg : simulcast03Rule.reg.body.Fits g) :
    simulcast03Rule.Reads (simulcast03Rule.line o g) g := by
  rcases hg with _ | ⟨h₁, _ | _⟩
  rw [simulcast03_line_eq]
  exact reads_of_first <| first_chars_then <| first_field1_then (lang_many1.mp h₁) rfl first_eol

theorem framerate_line_eq (rate : List Char) :
    framerateRule.line o [rate] = "framerate:".toList ++ (rate ++ []) :=
  (line_format framerateRule rfl).trans rfl

theorem framerate_line (hg : framerateRule.reg.body.Fits g) :
    framerateRule.Reads (framerateRule.line o g) g := by
  rcases hg with _ | ⟨h₁, _ | _⟩
  rename_i rate
  rw [framerate_line_eq]
  suffices hrate : first framerateRule.reg.body ("framerate:".toList ++ (rate ++ [])) =
      some ([rate], []) from reads_of_first hrate
  obtain ⟨whole, frac, rfl, hwhole, hfrac⟩ := lang_seq.mp h₁
  refine first_chars_then (first_group ?_)
  rw [List.append_assoc]
  rcases lang_alt.mp hfrac with hfrac | hfrac
  · obtain rfl := lang_eol.mp hfrac
    exact first_seq (first_many1 (lang_many1.mp hwhole).1 (lang_many1.mp hwhole).2
      (head_of_stops rfl)) (first_left first_eol)
  · obtain ⟨point, digits, rfl, hpoint, hdigits⟩ := lang_seq.mp hfrac
    obtain rfl := lang_chars.mp hpoint
    rw [List.append_assoc]
    exact first_seq (first_many1 (lang_many1.mp hwhole).1 (lang_many1.mp hwhole).2
      (head_of_stops rfl)) (first_right rfl (first_chars_then (first_many1
        (lang_many1.mp hdigits).1 (lang_many1.mp hdigits).2 (head_of_stops rfl))))

theorem sourceFilter_line_eq (mode netType types address list : List Char) :
    sourceFilterRule.line o [mode, netType, types, address, list] = "source-filter:".toList ++
      ([' '] ++ (mode ++ (" ".toList ++ (netType ++ (" ".toList ++ (types ++ (" ".toList ++
        (address ++ (" ".toList ++ (list ++ [])))))))))) :=
  (line_format sourceFilterRule rfl).trans rfl

theorem sourceFilter_line (hg : sourceFilterRule.reg.body.Fits g) :
    sourceFilterRule.Reads (sourceFilterRule.line o g) g := by
  rcases hg with _ | ⟨h₁, _ | ⟨h₂, _ | ⟨h₃, _ | ⟨h₄, _ | ⟨h₅, _ | _⟩⟩⟩⟩⟩
  rename_i mode netType types address list
  rw [sourceFilter_line_eq]
  have hmode : stops isSpace (mode ++ (" ".toList ++ (netType ++ (" ".toList ++
      (types ++ (" ".toList ++ (address ++ (" ".toList ++ (list ++ []))))))))) = true := by
    obtain ⟨text, ht, rfl⟩ := (lang_anyOf (by decide)).mp h₁
    rcases List.mem_pair.mp ht with rfl | rfl <;> rfl
  exact reads_of_first <| first_chars_then <|
    first_many_then (List.forall_mem_singleton.mpr rfl) hmode <|
    first_oneOf_then (by decide) (by decide) h₁ <| first_chars_then <|
    first_field_then (lang_many.mp h₂) rfl <| first_chars_then <|
    first_oneOf_then (by decide) (by decide) h₃ <| first_chars_then <|
    first_field_then (lang_many.mp h₄) rfl <| first_chars_then <| first_last (lang_many.mp h₅)

end MediasoupClient.Sdptransform
