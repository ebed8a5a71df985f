import MediasoupClient.Lib.CString
import Mathlib.Data.List.Perm.Basic
import Mathlib.Data.Int.Notation
import Mathlib.Tactic.Common

/-! Which certificate is accepted for a host (websocket/WSSClient.cpp).

        alternative names      DNS a     IP      DNS h     DNS b
        result                 a = h             h = h     b = h      of the last one
                                                             │
        common name                                          ├──▶  accepted or not
                                                             │
    `result` is overwritten by each DNS name, and kept from before a DNS name with a NUL in it, which
    ends the loop. The common name is asked if it is false then. What OpenSSL is asked for are the
    fields of the certificate. -/

namespace MediasoupClient.Websocket
open Lib

/-! ### Certificates -/

/-- A subject alternative name: the other types are skipped. -/
inductive GeneralName where
  | dNSName (data : List UInt8)
  | other
  deriving DecidableEq, Repr

/-- An entry of the subject. -/
structure NameEntry where
  nid : ℕ
  data : List UInt8
  deriving DecidableEq, Repr

def nidCommonName : ℕ := 13

/-- What is read of a certificate; the alternative names are an extension that may be missing. -/
structure X509 where
  subjectAltName : Option (List GeneralName)
  subject : List NameEntry
  deriving DecidableEq, Repr

/-- The loop over the alternative names. -/
def matchNames (hostname : CString) : List GeneralName → Bool → Bool
  | [], result => result
  | .other :: names, result => matchNames hostname names result
  | .dNSName data :: names, result =>
    if data.length ≠ strlen data then result
    else matchNames hostname names (hostname.val = cString data)

def verifySubjectAlternativeName (hostname : CString) (cert : X509) : Bool :=
  match cert.subjectAltName with
  | none => false
  | some names => matchNames hostname names false

def verifyCommonName (hostname : CString) (cert : X509) : Bool :=
  match cert.subject.find? (·.nid = nidCommonName) with
  | none => false
  | some entry =>
    if entry.data.length ≠ strlen entry.data then false else hostname.val = cString entry.data

/-- Where the verification stands: the depth in the chain, and the certificate there. -/
structure VerifyContext where
  errorDepth : ℤ
  currentCert : X509

def verifyCertificate (hostname : CString) (preverified : Bool) (ctx : VerifyContext) : Bool :=
  if ctx.errorDepth = 0 ∧ preverified then
    if verifySubjectAlternativeName hostname ctx.currentCert then true
    else verifyCommonName hostname ctx.currentCert
  else preverified

/-! ### The set of names -/

def GeneralName.dns? : GeneralName → Option (List UInt8)
  | .dNSName data => some data
  | .other => none

def dnsNames (cert : X509) : List (List UInt8) :=
  (cert.subjectAltName.getD []).filterMap GeneralName.dns?

def commonName (cert : X509) : Option (List UInt8) :=
  (cert.subject.find? (·.nid = nidCommonName)).map (·.data)

/-- The certificate is for the host. There is no NUL in the name of the host, so there is none in the
    name it equals. -/
def Named (hostname : CString) (cert : X509) : Prop :=
  hostname.val ∈ dnsNames cert ∨ commonName cert = some hostname.val

/-- No DNS name has a NUL in it. -/
def NulFree (cert : X509) : Prop := ∀ data ∈ dnsNames cert, 0 ∉ data

/-- The server's certificate, with everything else in order, is accepted. -/
def Accepted (hostname : CString) (cert : X509) : Prop :=
  verifyCertificate hostname true ⟨0, cert⟩ = true

/-- The set of names decides, whatever their order. -/
structure DecidedByNames (hostname : CString) (cert : X509) : Prop where
  exact : NulFree cert → (Accepted hostname cert ↔ Named hostname cert)
  anyOrder : NulFree cert → ∀ names names', cert.subjectAltName = some names → names'.Perm names →
    (Accepted hostname { cert with subjectAltName := some names' } ↔ Accepted hostname cert)
  sound : Accepted hostname cert → Named hostname cert

/-! ### The loop -/

/-- The last DNS name decides, if there is one. -/
theorem matchNames_eq {hostname : CString} {names : List GeneralName} (result : Bool)
    (h : ∀ data ∈ names.filterMap GeneralName.dns?, 0 ∉ data) :
    matchNames hostname names result =
      (((names.filterMap GeneralName.dns?).getLast?.map (decide <| hostname.val = ·)).getD
        result) := by
  induction names generalizing result with
  | nil => rfl
  | cons name names ih =>
    cases name with
    | other => exact ih result h
    | dNSName data =>
      have hdata : 0 ∉ data := h data (List.mem_cons_self ..)
      have hrest : ∀ d ∈ names.filterMap GeneralName.dns?, 0 ∉ d := by
        intro d hd
        exact h d (List.mem_cons_of_mem _ hd)
      rw [matchNames, if_neg (not_not_intro (length_eq_strlen_iff.mpr hdata)),
        cString_of_nulFree hdata, ih _ hrest]
      change _ = ((data :: names.filterMap GeneralName.dns?).getLast?.map _).getD result
      rw [List.getLast?_cons]
      cases (names.filterMap GeneralName.dns?).getLast? <;> rfl

/-- Whatever is in the names, a result of the loop comes from one of them. -/
theorem mem_of_matchNames {hostname : CString} {names : List GeneralName} {result : Bool}
    (h : matchNames hostname names result = true) :
    result = true ∨ hostname.val ∈ names.filterMap GeneralName.dns? := by
  induction names generalizing result with
  | nil => exact Or.inl h
  | cons name names ih =>
    cases name with
    | other => exact ih h
    | dNSName data =>
      rw [matchNames] at h
      split_ifs at h with hnul
      · exact Or.inl h
      · rcases ih h with hdata | hmem
        · have heq := of_decide_eq_true hdata
          rw [cString_of_nulFree (length_eq_strlen_iff.mp (not_not.mp hnul))] at heq
          exact Or.inr (heq ▸ List.mem_cons_self ..)
        · exact Or.inr (List.mem_cons_of_mem _ hmem)

/-! ### What is accepted -/

theorem verifyCommonName_iff {hostname : CString} {cert : X509} :
    verifyCommonName hostname cert = true ↔ commonName cert = some hostname.val := by
  unfold verifyCommonName commonName
  cases cert.subject.find? (·.nid = nidCommonName) with
  | none => simp
  | some entry =>
    simp only [Option.map_some, Option.some.injEq]
    constructor
    · intro h
      split_ifs at h with hnul
      have heq := of_decide_eq_true h
      rw [cString_of_nulFree (length_eq_strlen_iff.mp (not_not.mp hnul))] at heq
      exact heq.symm
    · intro h
      have hfree : 0 ∉ entry.data := h ▸ hostname.property
      rw [if_neg (not_not_intro (length_eq_strlen_iff.mpr hfree)), cString_of_nulFree hfree]
      exact decide_eq_true h.symm

theorem accepted_iff {hostname : CString} {cert : X509} : Accepted hostname cert ↔
    verifySubjectAlternativeName hostname cert = true ∨ commonName cert = some hostname.val := by
  rw [← verifyCommonName_iff, Accepted, verifyCertificate, if_pos ⟨rfl, rfl⟩]
  cases verifySubjectAlternativeName hostname cert <;> simp

/-- Without a NUL: the last DNS name decides, or the common name. -/
theorem accepted_last {hostname : CString} {cert : X509} (h : NulFree cert) :
    Accepted hostname cert ↔
      (dnsNames cert).getLast? = some hostname.val ∨ commonName cert = some hostname.val := by
  rw [accepted_iff]
  refine or_congr_left ?_
  unfold verifySubjectAlternativeName
  unfold NulFree at h
  unfold dnsNames at h ⊢
  cases hnames : cert.subjectAltName with
  | none => simp
  | some names =>
    rw [hnames] at h
    simp only [Option.getD_some] at h ⊢
    rw [matchNames_eq false h]
    cases (names.filterMap GeneralName.dns?).getLast? with
    | none => simp
    | some data => simp [eq_comm]

/-- Nobody is accepted under a name that is not its own. -/
theorem named_of_accepted {hostname : CString} {cert : X509} (h : Accepted hostname cert) :
    Named hostname cert := by
  rcases accepted_iff.mp h with hnames | hcommon
  · unfold verifySubjectAlternativeName at hnames
    cases hsan : cert.subjectAltName with
    | none =>
      rw [hsan] at hnames
      cases hnames
    | some names =>
      rw [hsan] at hnames
      rcases mem_of_matchNames hnames with hfalse | hmem
      · cases hfalse
      · refine Or.inl ?_
        rw [dnsNames, hsan]
        exact hmem
  · exact Or.inr hcommon

/-- An order of the names in which this one is the last DNS name. -/
theorem exists_perm_last {names : List GeneralName} {data : List UInt8}
    (h : data ∈ names.filterMap GeneralName.dns?) :
    ∃ names' : List GeneralName, names'.Perm names ∧
      (names'.filterMap GeneralName.dns?).getLast? = some data := by
  obtain ⟨name, hmem, hname⟩ := List.mem_filterMap.mp h
  refine ⟨names.erase name ++ [name], ?_, ?_⟩
  · exact (List.perm_append_singleton name _).trans (List.perm_cons_erase hmem).symm
  · rw [List.filterMap_append]
    simp [hname]

/-- In another order the DNS names are the same. -/
theorem mem_dnsNames_perm {cert : X509} {names names' : List GeneralName}
    (hnames : cert.subjectAltName = some names) (hperm : names'.Perm names) (data : List UInt8) :
    data ∈ dnsNames { cert with subjectAltName := some names' } ↔ data ∈ dnsNames cert := by
  rw [dnsNames, dnsNames, hnames]
  exact (hperm.filterMap _).mem_iff

/-- The host is a DNS name only where the order does not matter: the common name says the same, or
    there is no other one. -/
def OnlyName (hostname : CString) (cert : X509) : Prop :=
  hostname.val ∈ dnsNames cert →
    commonName cert = some hostname.val ∨ ∀ data ∈ dnsNames cert, data = hostname.val

theorem accepted_iff_named {hostname : CString} {cert : X509} (hfree : NulFree cert)
    (h : OnlyName hostname cert) : Accepted hostname cert ↔ Named hostname cert := by
  refine ⟨named_of_accepted, fun hnamed => (accepted_last hfree).mpr ?_⟩
  rcases hnamed with hmem | hcommon
  · rcases h hmem with hcommon | hall
    · exact Or.inr hcommon
    · obtain ⟨data, hlast⟩ := List.getLast?_isSome.mpr (List.ne_nil_of_mem hmem) |>
        Option.isSome_iff_exists.mp
      exact Or.inl (hlast.trans (congrArg some (hall data (List.mem_of_getLast? hlast))))
  · exact Or.inr hcommon

/-- CORRECT: the set of names decides exactly if, without a NUL in the DNS names, the host is not among
    them, or is the common name too, or is each of them. -/
theorem decided_by_names_iff (hostname : CString) (cert : X509) :
    DecidedByNames hostname cert ↔ (NulFree cert → OnlyName hostname cert) := by
  constructor
  · intro h hfree hmem
    by_contra hnot
    obtain ⟨hcommon, hothers⟩ := not_or.mp hnot
    obtain ⟨other, hother, hne⟩ : ∃ other ∈ dnsNames cert, other ≠ hostname.val := by
      simpa using hothers
    obtain ⟨names, hnames⟩ : ∃ names, cert.subjectAltName = some names := by
      cases hsan : cert.subjectAltName with
      | none =>
        rw [dnsNames, hsan] at hmem
        cases hmem
      | some names => exact ⟨names, rfl⟩
    -- with another DNS name behind all others the host is refused
    rw [dnsNames, hnames, Option.getD_some] at hother
    obtain ⟨names', hperm, hlast⟩ := exists_perm_last hother
    have hfree' : NulFree { cert with subjectAltName := some names' } := by
      intro data hdata
      exact hfree data ((mem_dnsNames_perm hnames hperm data).mp hdata)
    have haccepted := (h.anyOrder hfree names names' hnames hperm).mpr
      ((h.exact hfree).mpr (Or.inl hmem))
    rcases (accepted_last hfree').mp haccepted with hhost | hhost
    · exact hne (Option.some.inj (hlast.symm.trans hhost))
    · exact hcommon hhost
  · intro h
    refine ⟨fun hfree => accepted_iff_named hfree (h hfree),
      fun hfree names names' hnames hperm => ?_, named_of_accepted⟩
    have hsame := mem_dnsNames_perm hnames hperm
    have hfree' : NulFree { cert with subjectAltName := some names' } := by
      intro data hdata
      exact hfree data ((hsame data).mp hdata)
    have honly : OnlyName hostname { cert with subjectAltName := some names' } := by
      intro hmem
      rcases h hfree ((hsame _).mp hmem) with hcommon | hall
      · exact Or.inl hcommon
      · exact Or.inr fun data hdata => hall data ((hsame data).mp hdata)
    rw [accepted_iff_named hfree' honly, accepted_iff_named hfree (h hfree)]
    exact or_congr_left (hsame _)

/-- A certificate for `a` and `b`, in this order, is refused for `a`. -/
theorem first_name_refused : ¬ ∀ hostname cert, DecidedByNames hostname cert := by
  intro h
  have hdecided := h ⟨[97], by decide⟩ ⟨some [.dNSName [97], .dNSName [98]], []⟩
  have hfree : NulFree ⟨some [.dNSName [97], .dNSName [98]], []⟩ := by
    unfold NulFree
    decide
  have haccepted := (hdecided.exact hfree).mpr (Or.inl (by decide))
  unfold Accepted at haccepted
  exact absurd haccepted (by decide)

end MediasoupClient.Websocket
