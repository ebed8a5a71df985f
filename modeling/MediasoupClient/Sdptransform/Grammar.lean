import MediasoupClient.Lib.Regex
import MediasoupClient.Sdp.SimulcastGrammar

/-! The grammar of descriptions (json/grammar.cpp).

    A rule says which lines it reads, under which names it stores what its groups hold, and how it
    prints them again:

        name          push     names          a line becomes
        "mid"         ""       { }            location["mid"] = "0"
        "origin"      ""       { ... }        location["origin"] = { username: "-", ... }
        ""            "rtp"    { ... }        location["rtp"] gets { payload: 111, ... }
        ""            ""       { ... }        location itself gets the members (m= only)

    Of the rules of a type the first one that matches is taken, and the last one for `a=` matches
    every text. -/

namespace MediasoupClient.Sdptransform
open Lib Lib.Regex Sdp

/-- The types of values. -/
inductive ValueType where
  | s
  | u
  | d
  | f
  deriving DecidableEq

/-- A regular expression, and whether it begins with `^`. -/
structure Reg where
  anchored : Bool
  body : Regex

/-- `std::regex_search`: what the groups hold. -/
def Reg.search (reg : Reg) (content : List Char) : Option (List (List Char)) :=
  (if reg.anchored then first reg.body content else leftmost reg.body content).map (·.1)

/-- How a rule prints: one format, or one that is chosen by the members. -/
inductive Format where
  | format (text : String)
  | formatFunc (f : Json → String)

/-- The format for an object. -/
def Format.choose : Format → Json → String
  | .format text, _ => text
  | .formatFunc f, o => f o

/-- `grammar::Rule`. -/
structure Rule where
  name : String
  push : String
  reg : Reg
  names : List String
  types : List ValueType
  format : Format

/-- `hasValue`: a text that is not empty, or a number. -/
def hasValue (o : Json) (key : String) : Bool :=
  match o.find key with
  | some (.str text) => text ≠ ""
  | some value => value.isNumber
  | none => false

/-! ### Classes of characters -/

/-- `\S`. -/
def nonSpace (c : Char) : Bool := !isSpace c

/-- `.`. -/
def dot (c : Char) : Bool := c ≠ '\n' && c ≠ '\r'

/-- `[\w-.]`, `[\w-_]`, `[\w/]`. -/
def codecChar (c : Char) : Bool := isWord c || c = '-' || c = '.'
def feedbackChar (c : Char) : Bool := isWord c || c = '-'
def protocolChar (c : Char) : Bool := isWord c || c = '/'

/-- `[^\\S/]`: a backslash, a capital `S` and a slash end the address. -/
def addressChar (c : Char) : Bool := c ≠ '\\' && c ≠ 'S' && c ≠ '/'

/-- `[\x21\x23\x24\x25\x26\x27\x2A\x2B\x2D\x2E\w]`, which the compiler turns into
    `[!#$%&'*+-.\w]`: a range from `+` to `.`, with the comma in it. -/
def semanticsChar (c : Char) : Bool :=
  isWord c || c ∈ ['!', '#', '$', '%', '&', '\'', '*', '+', ',', '-', '.']

/-! ### Families of rules -/

/-- `(.*)`. -/
def textRule (name : String) : Rule where
  name := name
  push := ""
  reg := ⟨false, field dot⟩
  names := []
  types := [.s]
  format := .format "%s"

/-- `^pre(...*)`. -/
def valueRule (name pre : String) (p : Char → Bool) (type : ValueType) : Rule where
  name := name
  push := ""
  reg := ⟨true, concat [lit pre, field p]⟩
  names := []
  types := [type]
  format := .format (pre ++ if type = .d then "%d" else "%s")

/-- `^(flag)`. -/
def flagRule (name : String) (flags : List String) : Rule where
  name := name
  push := ""
  reg := ⟨true, oneOf flags⟩
  names := []
  types := [.s]
  format := .format "%s"

/-! ### The rules of a session -/

/-- `v=0` -/
def versionRule : Rule where
  name := "version"
  push := ""
  reg := ⟨true, concat [field Char.isDigit, .eol]⟩
  names := []
  types := [.d]
  format := .format "%d"

/-- `o=- 20518 0 IN IP4 203.0.113.1` -/
def originRule : Rule where
  name := "origin"
  push := ""
  reg := ⟨true, concat [field nonSpace, lit " ", field Char.isDigit, lit " ", field Char.isDigit,
    lit " ", field nonSpace, lit " IP", .group (.char Char.isDigit), lit " ", field nonSpace]⟩
  names := ["username", "sessionId", "sessionVersion", "netType", "ipVer", "address"]
  types := [.s, .u, .u, .s, .d, .s]
  format := .format "%s %d %d %s IP%d %s"

def nameRule : Rule := textRule "name"
def descriptionRule : Rule := textRule "description"
def uriRule : Rule := textRule "uri"
def emailRule : Rule := textRule "email"
def phoneRule : Rule := textRule "phone"
def timezonesRule : Rule := textRule "timezones"
def repeatsRule : Rule := textRule "repeats"

/-- `t=0 0` -/
def timingRule : Rule where
  name := "timing"
  push := ""
  reg := ⟨true, concat [field Char.isDigit, lit " ", field Char.isDigit]⟩
  names := ["start", "stop"]
  types := [.d, .d]
  format := .format "%d %d"

/-- `c=IN IP4 10.47.197.26` -/
def connectionRule : Rule where
  name := "connection"
  push := ""
  reg := ⟨true, concat [lit "IN IP", .group (.char Char.isDigit), lit " ", field addressChar,
    opt (concat [lit "/", field Char.isDigit])]⟩
  names := ["version", "ip", "ttl"]
  types := [.d, .s, .d]
  format := .formatFunc fun o => if hasValue o "ttl" then "IN IP%d %s/%d" else "IN IP%d %s"

/-- `b=AS:4000` -/
def bandwidthRule : Rule where
  name := ""
  push := "bandwidth"
  reg := ⟨true, concat [oneOf ["TIAS", "AS", "CT", "RR", "RS"], lit ":", field Char.isDigit]⟩
  names := ["type", "limit"]
  types := [.s, .d]
  format := .format "%s:%d"

/-- `m=video 51744 RTP/AVP 126 97 98 34 31` -/
def mediaRule : Rule where
  name := ""
  push := ""
  reg := ⟨true, concat [field isWord, lit " ", field Char.isDigit,
    opt (concat [lit "/", field Char.isDigit]), lit " ", field protocolChar,
    opt (concat [lit " ", field dot])]⟩
  names := ["type", "port", "numPorts", "protocol", "payloads"]
  types := [.s, .d, .d, .s, .s]
  format := .formatFunc fun o => if hasValue o "numPorts" then "%s %d/%d %s %s" else "%s %d%v %s %s"

/-! ### The rules of attributes -/

/-- `a=rtpmap:110 opus/48000/2` -/
def rtpRule : Rule where
  name := ""
  push := "rtp"
  reg := ⟨true, concat [lit "rtpmap:", field Char.isDigit, lit " ", field codecChar,
    opt (concat [.many isSpace, lit "/", field Char.isDigit,
      opt (concat [.many isSpace, lit "/", field nonSpace])])]⟩
  names := ["payload", "codec", "rate", "encoding"]
  types := [.d, .s, .d, .s]
  format := .formatFunc fun o =>
    if hasValue o "encoding" then "rtpmap:%d %s/%s/%s"
    else if hasValue o "rate" then "rtpmap:%d %s/%s"
    else "rtpmap:%d %s"

/-- `a=fmtp:111 minptime=10; useinbandfec=1` -/
def fmtpRule : Rule where
  name := ""
  push := "fmtp"
  reg := ⟨true, concat [lit "fmtp:", field Char.isDigit, lit " ", field dot]⟩
  names := ["payload", "config"]
  types := [.d, .s]
  format := .format "fmtp:%d %s"

def controlRule : Rule := valueRule "control" "control:" dot .s

/-- `a=rtcp:65179 IN IP4 193.84.77.194` -/
def rtcpRule : Rule where
  name := "rtcp"
  push := ""
  reg := ⟨true, concat [lit "rtcp:", field Char.isDigit, opt (concat [lit " ", field nonSpace,
    lit " IP", .group (.char Char.isDigit), lit " ", field nonSpace])]⟩
  names := ["port", "netType", "ipVer", "address"]
  types := [.d, .s, .d, .s]
  format := .formatFunc fun o => if hasValue o "address" then "rtcp:%d %s IP%d %s" else "rtcp:%d"

/-- `(\*|\d*)`. -/
def payloadField : Regex := .group (.alt (lit "*") (.many Char.isDigit))

/-- `a=rtcp-fb:98 trr-int 100` -/
def rtcpFbTrrIntRule : Rule where
  name := ""
  push := "rtcpFbTrrInt"
  reg := ⟨true, concat [lit "rtcp-fb:", payloadField, lit " trr-int ", field Char.isDigit]⟩
  names := ["payload", "value"]
  types := [.s, .d]
  format := .format "rtcp-fb:%s trr-int %d"

/-- `a=rtcp-fb:98 nack rpsi` -/
def rtcpFbRule : Rule where
  name := ""
  push := "rtcpFb"
  reg := ⟨true, concat [lit "rtcp-fb:", payloadField, lit " ", field feedbackChar,
    opt (concat [lit " ", field feedbackChar])]⟩
  names := ["payload", "type", "subtype"]
  types := [.s, .s, .s]
  format := .formatFunc fun o =>
    if hasValue o "subtype" then "rtcp-fb:%s %s %s" else "rtcp-fb:%s %s"

/-- The uri of an encrypted extension. -/
def encryptUri : String := "urn:ietf:params:rtp-hdrext:encrypt"

/-- `a=extmap:1/recvonly URI-gps-string` -/
def extRule : Rule where
  name := ""
  push := "ext"
  reg := ⟨true, concat [lit "extmap:", .group (many1 Char.isDigit),
    opt (concat [lit "/", .group (many1 isWord)]),
    opt (concat [lit " ", .group (lit encryptUri)]), lit " ", field nonSpace,
    opt (concat [lit " ", field nonSpace])]⟩
  names := ["value", "direction", "encrypt-uri", "uri", "config"]
  types := [.d, .s, .s, .s, .s]
  format := .formatFunc fun o => "extmap:%d" ++ (if hasValue o "direction" then "/%s" else "%v") ++
    (if hasValue o "encrypt-uri" then " %s" else "%v") ++ " %s" ++
    (if hasValue o "config" then " %s" else "")

def extmapAllowMixedRule : Rule := flagRule "extmapAllowMixed" ["extmap-allow-mixed"]

/-- `a=crypto:1 AES_CM_128_HMAC_SHA1_80 inline:PS1uQCVeeCFCanVmcjkpPywjNWhcYD0mXXtxaVBR|2^20|1:32` -/
def cryptoRule : Rule where
  name := ""
  push := "crypto"
  reg := ⟨true, concat [lit "crypto:", field Char.isDigit, lit " ", field isWord, lit " ",
    field nonSpace, opt (concat [lit " ", field nonSpace])]⟩
  names := ["id", "suite", "config", "sessionConfig"]
  types := [.d, .s, .s, .s]
  format := .formatFunc fun o =>
    if hasValue o "sessionConfig" then "crypto:%d %s %s %s" else "crypto:%d %s %s"

def setupRule : Rule := valueRule "setup" "setup:" isWord .s
def midRule : Rule := valueRule "mid" "mid:" nonSpace .s
def msidRule : Rule := valueRule "msid" "msid:" dot .s
def ptimeRule : Rule := valueRule "ptime" "ptime:" Char.isDigit .d
def maxptimeRule : Rule := valueRule "maxptime" "maxptime:" Char.isDigit .d
def directionRule : Rule :=
  flagRule "direction" ["sendrecv", "recvonly", "sendonly", "inactive"]
def iceliteRule : Rule := flagRule "icelite" ["ice-lite"]
def iceUfragRule : Rule := valueRule "iceUfrag" "ice-ufrag:" nonSpace .s
def icePwdRule : Rule := valueRule "icePwd" "ice-pwd:" nonSpace .s

/-- `a=fingerprint:SHA-1 00:11:22:33:44:55:66:77:88:99:AA:BB:CC:DD:EE:FF:00:11:22:33` -/
def fingerprintRule : Rule where
  name := "fingerprint"
  push := ""
  reg := ⟨true, concat [lit "fingerprint:", field nonSpace, lit " ", field nonSpace]⟩
  names := ["type", "hash"]
  types := [.s, .s]
  format := .format "fingerprint:%s %s"

/-- `a=candidate:1162875081 1 udp 2113937151 192.168.34.75 60017 typ host generation 0 network-id 3` -/
def candidatesRule : Rule where
  name := ""
  push := "candidates"
  reg := ⟨true, concat [lit "candidate:", field nonSpace, lit " ", field Char.isDigit, lit " ",
    field nonSpace, lit " ", field Char.isDigit, lit " ", field nonSpace, lit " ",
    field Char.isDigit, lit " typ ", field nonSpace,
    opt (concat [lit " raddr ", field nonSpace, lit " rport ", field Char.isDigit]),
    opt (concat [lit " tcptype ", field nonSpace]),
    opt (concat [lit " generation ", field Char.isDigit]),
    opt (concat [lit " network-id ", field Char.isDigit]),
    opt (concat [lit " network-cost ", field Char.isDigit])]⟩
  names := ["foundation", "component", "transport", "priority", "ip", "port", "type", "raddr",
    "rport", "tcptype", "generation", "network-id", "network-cost"]
  types := [.s, .d, .s, .d, .s, .d, .s, .s, .d, .s, .d, .d, .d, .d]
  format := .formatFunc fun o => "candidate:%s %d %s %d %s %d typ %s" ++
    (if hasValue o "raddr" then " raddr %s rport %d" else "%v%v") ++
    (if hasValue o "tcptype" then " tcptype %s" else "%v") ++
    -- a generation that is missing has no `%v`
    (if hasValue o "generation" then " generation %d" else "") ++
    (if hasValue o "network-id" then " network-id %d" else "%v") ++
    (if hasValue o "network-cost" then " network-cost %d" else "%v")

def endOfCandidatesRule : Rule := flagRule "endOfCandidates" ["end-of-candidates"]
def remoteCandidatesRule : Rule := valueRule "remoteCandidates" "remote-candidates:" dot .s
def iceOptionsRule : Rule := valueRule "iceOptions" "ice-options:" nonSpace .s

/-- `a=ssrc:2566107569 cname:t9YU8M1UxTF8Y1A1` -/
def ssrcsRule : Rule where
  name := ""
  push := "ssrcs"
  reg := ⟨true, concat [lit "ssrc:", field Char.isDigit, lit " ", field feedbackChar,
    opt (concat [lit ":", field dot])]⟩
  names := ["id", "attribute", "value"]
  types := [.d, .s, .s]
  format := .formatFunc fun o => "ssrc:%d" ++
    if hasValue o "attribute" then " %s" ++ if hasValue o "value" then ":%s" else "" else ""

/-- `a=ssrc-group:FEC 1 2` -/
def ssrcGroupsRule : Rule where
  name := ""
  push := "ssrcGroups"
  reg := ⟨true, concat [lit "ssrc-group:", field semanticsChar, lit " ", field dot]⟩
  names := ["semantics", "ssrcs"]
  types := [.s, .s]
  format := .format "ssrc-group:%s %s"

/-- `a=msid-semantic: WMS Jvlam5X3SX1OP6pn20zWogvaKJz5Hjf9OnlV` -/
def msidSemanticRule : Rule where
  name := "msidSemantic"
  push := ""
  reg := ⟨true, concat [lit "msid-semantic:", opt (.char isSpace), field isWord, lit " ",
    field nonSpace]⟩
  names := ["semantic", "token"]
  types := [.s, .s]
  format := .format "msid-semantic: %s %s"

/-- `a=group:BUNDLE audio video` -/
def groupsRule : Rule where
  name := ""
  push := "groups"
  reg := ⟨true, concat [lit "group:", field isWord, lit " ", field dot]⟩
  names := ["type", "mids"]
  types := [.s, .s]
  format := .format "group:%s %s"

def rtcpMuxRule : Rule := flagRule "rtcpMux" ["rtcp-mux"]
def rtcpRsizeRule : Rule := flagRule "rtcpRsize" ["rtcp-rsize"]

/-- `a=sctpmap:5000 webrtc-datachannel 1024` -/
def sctpmapRule : Rule where
  name := "sctpmap"
  push := ""
  reg := ⟨true, concat [lit "sctpmap:", .group (many1 Char.isDigit), lit " ", field nonSpace,
    opt (concat [lit " ", field Char.isDigit])]⟩
  names := ["sctpmapNumber", "app", "maxMessageSize"]
  types := [.d, .s, .d]
  format := .formatFunc fun o =>
    if hasValue o "maxMessageSize" then "sctpmap:%s %s %s" else "sctpmap:%s %s"

/-- `a=x-google-flag:conference`: this rule has no `^`. -/
def xGoogleFlagRule : Rule where
  name := "xGoogleFlag"
  push := ""
  reg := ⟨false, concat [lit "x-google-flag:", field nonSpace]⟩
  names := []
  types := [.s]
  format := .format "x-google-flag:%s"

/-- `a=rid:1 send max-width=1280;max-height=720;max-fps=30;depend=0` -/
def ridsRule : Rule where
  name := ""
  push := "rids"
  reg := ⟨true, concat [lit "rid:", .group (many1 isWord), lit " ", .group (many1 isWord),
    opt (concat [lit " ", field dot])]⟩
  names := ["id", "direction", "params"]
  types := [.s, .s, .s]
  format := .formatFunc fun o => if hasValue o "params" then "rid:%s %s %s" else "rid:%s %s"

/-- `\[\S+\]`. -/
def bracketed : Regex := concat [lit "[", many1 nonSpace, lit "]"]

/-- `(\*|\[\S+\](?:[\s\t]+\[\S+\])*)`. -/
def attrsField : Regex :=
  .group (.alt (lit "*") (concat [bracketed, .star (concat [many1 isSpace, bracketed])]))

/-- `a=imageattr:97 send [x=800,y=640,sar=1.1,q=0.6] [x=480,y=320] recv [x=330,y=250]` -/
def imageattrsRule : Rule where
  name := ""
  push := "imageattrs"
  reg := ⟨true, concat [lit "imageattr:", .group (.alt (many1 Char.isDigit) (lit "*")),
    many1 isSpace, oneOf ["send", "recv"], many1 isSpace, attrsField,
    opt (concat [many1 isSpace, oneOf ["recv", "send"], many1 isSpace, attrsField])]⟩
  names := ["pt", "dir1", "attrs1", "dir2", "attrs2"]
  types := [.s, .s, .s, .s, .s]
  format := .formatFunc fun o =>
    "imageattr:%s %s %s" ++ if hasValue o "dir2" then " %s %s" else ""

/-- `([a-zA-Z0-9\-_~;,]+)`. -/
def listField : Regex := .group (many1 isListChar)

/-- `a=simulcast:send 1,2,3;~4,~5 recv 6;~7,~8` -/
def simulcastRule : Rule where
  name := "simulcast"
  push := ""
  reg := ⟨true, concat [lit "simulcast:", oneOf ["send", "recv"], lit " ", listField,
    opt (concat [opt (.char isSpace), oneOf ["send", "recv"], lit " ", listField]), .eol]⟩
  names := ["dir1", "list1", "dir2", "list2"]
  types := [.s, .s, .s, .s]
  format := .formatFunc fun o =>
    "simulcast:%s %s" ++ if hasValue o "dir2" then " %s %s" else ""

/-- `a=simulcast: send rid=5;6;7 paused=6,7` -/
def simulcast03Rule : Rule where
  name := "simulcast_03"
  push := ""
  reg := ⟨true, concat [lit "simulcast: ", .group (many1 dot), .eol]⟩
  names := ["value"]
  types := [.s]
  format := .format "simulcast: %s"

/-- `a=framerate:29.97` -/
def framerateRule : Rule where
  name := "framerate"
  push := ""
  reg := ⟨true, concat [lit "framerate:", .group (concat [many1 Char.isDigit,
    .alt .eol (concat [lit ".", many1 Char.isDigit])])]⟩
  names := []
  types := [.f]
  format := .format "framerate:%s"

/-- `a=source-filter: incl IN IP4 239.5.2.31 10.1.15.5` -/
def sourceFilterRule : Rule where
  name := "sourceFilter"
  push := ""
  reg := ⟨true, concat [lit "source-filter:", .many isSpace, oneOf ["excl", "incl"], lit " ",
    field nonSpace, lit " ", oneOf ["IP4", "IP6", "*"], lit " ", field nonSpace, lit " ", field dot]⟩
  names := ["filterMode", "netType", "addressTypes", "destAddress", "srcList"]
  types := [.s, .s, .s, .s, .s]
  format := .format "source-filter: %s %s %s %s %s"

def tsRefclkRule : Rule := valueRule "tsRefclk" "ts-refclk:" dot .s
def mediaclkRule : Rule := valueRule "mediaclk" "mediaclk:" dot .s

/-- Any attribute that no other rule reads. -/
def invalidRule : Rule where
  name := ""
  push := "invalid"
  reg := ⟨false, field dot⟩
  names := ["value"]
  types := [.s]
  format := .format "%s"

/-- The rules for `a=`. -/
def attributeRules : List Rule := [
  rtpRule, fmtpRule, controlRule, rtcpRule, rtcpFbTrrIntRule, rtcpFbRule, extRule,
  extmapAllowMixedRule, cryptoRule, setupRule, midRule, msidRule, ptimeRule, maxptimeRule,
  directionRule, iceliteRule, iceUfragRule, icePwdRule, fingerprintRule, candidatesRule,
  endOfCandidatesRule, remoteCandidatesRule, iceOptionsRule, ssrcsRule, ssrcGroupsRule,
  msidSemanticRule, groupsRule, rtcpMuxRule, rtcpRsizeRule, sctpmapRule, xGoogleFlagRule, ridsRule,
  imageattrsRule, simulcastRule, simulcast03Rule, framerateRule, sourceFilterRule, tsRefclkRule,
  mediaclkRule, invalidRule]

/-- `grammar::rulesMap`. -/
def rulesMap : Char → List Rule
  | 'v' => [versionRule]
  | 'o' => [originRule]
  | 's' => [nameRule]
  | 'i' => [descriptionRule]
  | 'u' => [uriRule]
  | 'e' => [emailRule]
  | 'p' => [phoneRule]
  | 'z' => [timezonesRule]
  | 'r' => [repeatsRule]
  | 't' => [timingRule]
  | 'c' => [connectionRule]
  | 'b' => [bandwidthRule]
  | 'm' => [mediaRule]
  | 'a' => attributeRules
  | _ => []

end MediasoupClient.Sdptransform
