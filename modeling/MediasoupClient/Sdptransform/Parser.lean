import MediasoupClient.Sdp.ParseParams
import MediasoupClient.Sdptransform.Grammar

/-! How a description becomes a session (json/parser.cpp), with all of the grammar.

        v=0                            ──▶   version: 0
        o=- 1 2 IN IP4 0.0.0.0         ──▶   origin: { username: "-", sessionId: 1, ... }
        m=audio 9 RTP/SAVPF 111        ──▶   media: [ { type: "audio", ...,
        a=mid:0                                         mid: "0",
        a=rtpmap:111 opus/48000/2                       rtp: [ { payload: 111, ... } ] } ]

    Everything in front of the first `m=` is the session's, everything behind it the latest
    section's. A group that has no text makes no member, but for rules without names.

    `parse` is the code, with the exceptions of the library: a member of an object is set on nothing
    else, and only an array gets an element. `store` works on the members alone, as no line ever finds
    a member of another shape under the key of its rule. -/

namespace MediasoupClient.Sdptransform
open Lib Lib.Regex Sdp

section
variable (pf : Platform)

/-! ### Values -/

/-- `iss >> d`: a number, unless it is too large. -/
def readDouble (str : List Char) : Option ℚ :=
  (readDecimal str).filter fun q => |Json.roundBinary 53 (-1074) q| < 2 ^ 1024

/-- `toType`: a text that is no number of the type is 0. -/
def toType (str : List Char) : ValueType → Except Invalid Json
  | .s => .ok (.str (String.ofList str))
  | .u =>
    match (signedDecimal str).filter fun i => -2 ^ 64 < i ∧ i < 2 ^ 64 with
    | some i => .ok (.uint (i % 2 ^ 64).toNat)
    | none => .ok (.uint 0)
  | .d => .ok (.int ((readInteger 64 str).getD 0))
  | .f =>
    match readDouble str with
    | some q =>
      if pf.underflows q then .error (.exception "stod")
      else .ok (.float (Json.roundBinary 53 (-1074) q))
    | none => .ok (.float 0)

/-! ### The rules of a line -/

/-- The first rule that matches, and what its groups hold. -/
def findRule (content : List Char) (rules : List Rule) : Option (Rule × List (List Char)) :=
  rules.findSome? fun rule => (rule.reg.search content).map fun groups => (rule, groups)

/-- A line, `^([a-z])=(.*)`: its type and its content. -/
def validLine : List Char → Option (Char × List Char)
  | type :: '=' :: content => if type.isLower then some (type, content) else none
  | _ => none

/-- The loop of `attachProperties`: `names`, `types` and the groups go in step. -/
def attachEach : List String → List ValueType → List (List Char) → Json → Except Invalid Json
  | name :: names, type :: types, text :: texts, location =>
    if text = [] then attachEach names types texts location
    else do attachEach names types texts (← location.write name (← toType pf text type))
  | _, _, _, location => .ok location

def attachProperties (groups : List (List Char)) (location : Json) (names : List String)
    (rawName : String) (types : List ValueType) : Except Invalid Json :=
  if rawName ≠ "" ∧ names = [] then do
    location.write rawName (← toType pf (groups.headD []) (types.headD .s))
  else attachEach pf names types groups location

/-- What `parseReg` puts where the rule finds nothing. -/
def blankLocation (rule : Rule) (location : Json) : Except Fault Json :=
  if rule.push ≠ "" ∧ (location.find rule.push).isNone then location.write rule.push (.arr [])
  else if rule.name ≠ "" ∧ rule.names ≠ [] ∧ (location.find rule.name).isNone then
    location.write rule.name (.obj [])
  else .ok location

/-- `parseReg`: an object is pushed, or the members go to the named location, or to the root. -/
def parseReg (rule : Rule) (groups : List (List Char)) (location : Json) :
    Except Invalid Json := do
  let location ← blankLocation rule location
  if rule.push ≠ "" then
    let object ← attachProperties pf groups (.obj []) rule.names rule.name rule.types
    let pushed ← (← location.readOrNull rule.push).pushBack object
    location.write rule.push pushed
  else if rule.name ≠ "" ∧ rule.names ≠ [] then
    let named ← attachProperties pf groups (← location.readOrNull rule.name) rule.names rule.name
      rule.types
    location.write rule.name named
  else attachProperties pf groups location rule.names rule.name rule.types

/-- What a line adds to its location. -/
def applyRules (type : Char) (content : List Char) (location : Json) : Except Invalid Json :=
  match findRule content (rulesMap type) with
  | some (rule, groups) => parseReg pf rule groups location
  | none => .ok location

/-! ### The text -/

/-- `session`, and `media` with the latest section first. -/
structure Reading where
  session : Json
  media : List Json

/-- A line in turn. -/
def parseLine (st : Reading) (line : List Char) : Except Invalid Reading :=
  match validLine line with
  | none => .ok st
  | some (type, content) =>
    if type = 'm' then do
      return { st with media := (← applyRules pf type content (.obj blankMedia)) :: st.media }
    else
      match st.media with
      | [] => do return { st with session := ← applyRules pf type content st.session }
      | m :: rest => do return { st with media := (← applyRules pf type content m) :: rest }

/-- `sdptransform::parse`. -/
def parse (sdp : String) : Except Invalid Json := do
  let st ← (split sdp '\n').foldlM (fun st line => parseLine pf st (withoutCr line)) ⟨.obj [], []⟩
  st.session.write "media" (.arr st.media.reverse)

/-! ### The members alone -/

/-- The members of a line. -/
def attachNames : List String → List ValueType → List (List Char) → Members →
    Except Invalid Members
  | name :: names, type :: types, text :: texts, location =>
    if text = [] then attachNames names types texts location
    else do attachNames names types texts (put name (← toType pf text type) location)
  | _, _, _, location => .ok location

/-- Where they go, if every member has the shape that the rule expects. -/
def storeReg (rule : Rule) (groups : List (List Char)) (location : Members) :
    Except Invalid Members := do
  if rule.push ≠ "" then
    let object ← attachNames pf rule.names rule.types groups []
    return put rule.push (.arr (((get rule.push location).getD .null).elems ++ [.obj object]))
      location
  else if rule.name = "" then attachNames pf rule.names rule.types groups location
  else if rule.names = [] then
    return put rule.name (← toType pf (groups.headD []) (rule.types.headD .s)) location
  else
    let named :=
      match get rule.name location with
      | some (.obj members) => members
      | _ => []
    return put rule.name (.obj (← attachNames pf rule.names rule.types groups named)) location

def storeRules (type : Char) (content : List Char) (location : Members) : Except Invalid Members :=
  match findRule content (rulesMap type) with
  | some (rule, groups) => storeReg pf rule groups location
  | none => .ok location

def storeLine (st : Parsing) (line : List Char) : Except Invalid Parsing :=
  match validLine line with
  | none => .ok st
  | some (type, content) =>
    if type = 'm' then do
      return { st with media := (← storeRules pf type content blankMedia) :: st.media }
    else
      match st.media with
      | [] => do return { st with session := ← storeRules pf type content st.session }
      | m :: rest => do return { st with media := (← storeRules pf type content m) :: rest }

def store (sdp : String) : Except Invalid Json := do
  let st ← (split sdp '\n').foldlM (fun st line => storeLine pf st (withoutCr line)) ⟨[], []⟩
  return .obj (put "media" (.arr (st.media.reverse.map .obj)) st.session)

end

end MediasoupClient.Sdptransform
