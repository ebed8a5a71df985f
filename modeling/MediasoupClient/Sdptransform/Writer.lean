import MediasoupClient.Sdptransform.Parser

/-! How a session is printed (json/writer.cpp).

        { version: 0, name: "-", ...,            ──▶   v=0
          media: [ { type: "audio", port: 9,           s=-
                     mid: "0",                         m=audio 9 RTP/SAVPF 111
                     rtp: [ ... ] } ] }                a=rtpmap:111 opus/48000/2
                                                       a=mid:0

    The lines of a session, and those of each section, come in the order of the rules. A rule with a
    name prints a line if there is such a member, a rule that pushes one for each element. A member
    that no rule knows is not printed. -/

namespace MediasoupClient.Sdptransform
open Lib Sdp

/-- Why a session is not printed. -/
inductive WriteError where
  | invalidArgument
  | fault (e : Fault)
  deriving DecidableEq

section
variable (dump : Json → String)

/-- `stream << value` of a text without its quotes; `dump` prints what is no text and no integer. -/
def argText : Json → List Char
  | .str s => s.toList
  | .int i => (toString i).toList
  | .uint n => (toString n).toList
  | j => (dump j).toList

/-- The placeholders `%[sdv%]`. -/
def isPlaceholder (c : Char) : Bool := c ∈ ['s', 'd', 'v', '%']

/-- What a placeholder prints of its argument. -/
def placed (c : Char) (arg : List Char) : List Char :=
  if c = '%' then ['%'] else if c = 'v' then [] else arg

/-- The loop over the placeholders of a format. Without an argument only the placeholder itself is
    printed, and what is behind the last one never is. -/
def fill (pre : List Char) : List Char → List (List Char) → List Char
  | '%' :: c :: format, args =>
    if isPlaceholder c then
      match args with
      | [] => '%' :: c :: fill [] format []
      | arg :: args => pre ++ (placed c arg ++ fill [] format args)
    else fill (pre ++ ['%']) (c :: format) args
  | c :: format, args => fill (pre ++ [c]) format args
  | [], _ => []

/-- The argument for a name: the member of the named object, or the one of the location. -/
def argOf (rule : Rule) (location : Json) (name : String) : Json :=
  let named := if rule.name = "" then none else (location.find rule.name).bind (·.find name)
  (named.or (location.find name)).getD (.str "")

/-- The arguments of a line. -/
def argsOf (rule : Rule) (location : Json) : List Json :=
  if rule.names = [] then (location.find rule.name).toList
  else rule.names.map (argOf rule location)

/-- The object that the format of a line is chosen by. -/
def formatted (rule : Rule) (location : Json) : Json :=
  if rule.push ≠ "" ∨ rule.name = "" then location else (location.find rule.name).getD .null

/-- What a line says behind its type. -/
def contentOf (rule : Rule) (location : Json) : List Char :=
  fill [] (rule.format.choose (formatted rule location)).toList
    ((argsOf rule location).map (argText dump))

/-- `makeLine`. -/
def makeLine (type : Char) (rule : Rule) (location : Json) : List Char :=
  type :: '=' :: contentOf dump rule location ++ ['\r', '\n']

/-- What a rule prints of a location: the contents of its lines. -/
def ruleContents (location : Json) (rule : Rule) : List (List Char) :=
  if rule.name ≠ "" ∧ ((location.find rule.name).any fun v => !v.isNull) = true then
    [contentOf dump rule location]
  else if rule.push ≠ "" then
    match location.find rule.push with
    | some (.arr elements) => elements.map (contentOf dump rule)
    | _ => []
  else []

/-- `OuterOrder` and `InnerOrder`. -/
def outerOrder : List Char := ['v', 'o', 's', 'i', 'u', 'e', 'p', 'c', 'b', 't', 'r', 'z', 'a']
def innerOrder : List Char := ['i', 'c', 'b', 'a']

/-- The lines of a location, each with its type. -/
def linesOf (order : List Char) (location : Json) : List (Char × List Char) :=
  order.flatMap fun type =>
    (rulesMap type).flatMap fun rule => (ruleContents dump location rule).map (type, ·)

/-- The lines of a section. -/
def mediaLines (m : Json) : List (Char × List Char) :=
  ('m', contentOf dump mediaRule m) :: linesOf dump innerOrder m

/-- A member that is not there yet. -/
def ensure (key : String) (v : Json) (session : Members) : Members :=
  match get key session with
  | some _ => session
  | none => put key v session

/-- The session with the members that are printed in any case. -/
def prepared (session : Members) : Except Fault Members := do
  let session := ensure "media" (.arr []) (ensure "name" (.str "-") (ensure "version" (.int 0) session))
  let media := (get "media" session).getD .null
  match media with
  | .arr sections => return put "media" (.arr (← sections.mapM withPayloads)) session
  | .obj members => do
    return put "media" (.obj (← members.mapM fun kv => do return (kv.1, ← withPayloads kv.2))) session
  | .null => return session
  | media => return put "media" (← withPayloads media) session

/-- The lines of a session. -/
def sessionLines (session : Members) : List (Char × List Char) :=
  linesOf dump outerOrder (.obj session) ++
    ((get "media" session).getD .null).elems.flatMap (mediaLines dump)

/-- A line as it is printed. -/
def printLine (line : Char × List Char) : List Char := line.1 :: '=' :: line.2 ++ ['\r', '\n']

/-- CORRECT: what is printed for a rule is a call of `makeLine` for the member or for each element. -/
theorem printed_of_rule (type : Char) (rule : Rule) (location : Json) :
    ((ruleContents dump location rule).map (type, ·)).flatMap printLine =
      if rule.name ≠ "" ∧ ((location.find rule.name).any fun v => !v.isNull) = true then
        makeLine dump type rule location
      else if rule.push ≠ "" then
        match location.find rule.push with
        | some (.arr elements) => elements.flatMap (makeLine dump type rule)
        | _ => []
      else [] := by
  unfold ruleContents
  split_ifs with hname hpush
  · simp only [List.map_cons, List.map_nil, List.flatMap_cons, List.flatMap_nil, List.append_nil]
    rfl
  · split
    · rw [List.map_map, List.flatMap_map]
      rfl
    · rfl
  · rfl

/-- `sdptransform::write`: the text, and the session that it leaves. -/
def write : Json → Except WriteError (String × Json)
  | .obj session =>
    match prepared session with
    | .ok session =>
      .ok (String.ofList ((sessionLines dump session).flatMap printLine), .obj session)
    | .error e => .error (.fault e)
  | _ => .error .invalidArgument

end

end MediasoupClient.Sdptransform
