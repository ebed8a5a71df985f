import MediasoupClient.Signaling.Models
import MediasoupClient.Signaling.Shape

/-! The models that RTP capabilities and parameters pass through (mssignal/signaling_models.h).

        getRouterRtpCapabilities  ──▶  GetRouterRtpCapabilitiesResponse::Data
        join                      ◀──  JoinRequest::RTPCapabilities
        produce                   ◀──  ProduceRequest::RTPParameters
        newConsumer               ──▶  NewConsumerRequest::RTPParameters

    The structs of one name and the same fields are one struct here. Each model is followed by its
    shape: the table of the members that survive it. -/

namespace MediasoupClient.Signaling
open Lib

/-- `float`: a double is read into it, and written as one. -/
def float : Serializer ℚ where
  backward name
    | .double q => .ok (Json.roundBinary 24 (-149) q)
    | _ => .error (.typeMismatch name)
  forward q := .double q

@[simp] theorem has_float : float.Has Shape.float := fun _ j => by cases j <;> rfl

/-- The shape of an `int32_t`. -/
abbrev Shape.int32 : Shape := .int (-2 ^ 31) (2 ^ 31)

/-- The shape of an `int64_t`. -/
abbrev Shape.int64 : Shape := .int (-2 ^ 63) (2 ^ 63)

/-! ### Feedback -/

/-- `RTCPFeedback`, of all the models. -/
abbrev RTCPFeedback := NewConsumerRequest.RTCPFeedback

def RTCPFeedback.fields : List (String × Shape) := [("type", .string), ("parameter", .string)]

@[simp] theorem RTCPFeedback.has : (model RTCPFeedback).Has (.object RTCPFeedback.fields) :=
  has_model (by simp [Tabulated, Separate, Model.fields, Model.init, RTCPFeedback.fields])

/-! ### Capabilities -/

/-- `GetRouterRtpCapabilitiesResponse::Codec` and `JoinRequest::Codec`, by their parameters. -/
structure CapabilityCodec (π : Type) where
  kind : Option String := none
  mimeType : Option String := none
  clockRate : Option ℤ := none
  channels : Option ℤ := none
  rtcpFeedback : Option (List RTCPFeedback) := none
  parameters : Option π := none
  preferredPayloadType : Option ℤ := none

instance {π : Type} [Model π] : Model (CapabilityCodec π) where
  init := {}
  fields := [
    optional "kind" string (·.kind) fun a v => { a with kind := v },
    optional "mimeType" string (·.mimeType) fun a v => { a with mimeType := v },
    optional "clockRate" int32 (·.clockRate) fun a v => { a with clockRate := v },
    optional "channels" int32 (·.channels) fun a v => { a with channels := v },
    optional "rtcpFeedback" (vector (model RTCPFeedback)) (·.rtcpFeedback)
      fun a v => { a with rtcpFeedback := v },
    optional "parameters" (model π) (·.parameters) fun a v => { a with parameters := v },
    optional "preferredPayloadType" int32 (·.preferredPayloadType)
      fun a v => { a with preferredPayloadType := v }]

def CapabilityCodec.fields (parameters : List (String × Shape)) : List (String × Shape) :=
  [("kind", .string), ("mimeType", .string), ("clockRate", .int32), ("channels", .int32),
    ("rtcpFeedback", .array (.object RTCPFeedback.fields)), ("parameters", .object parameters),
    ("preferredPayloadType", .int32)]

theorem CapabilityCodec.has {π : Type} [Model π] {parameters : List (String × Shape)}
    (h : (model π).Has (.object parameters)) :
    (model (CapabilityCodec π)).Has (.object (CapabilityCodec.fields parameters)) :=
  has_model (by
    simp [Tabulated, Separate, Model.fields, Model.init, CapabilityCodec.fields, h])

/-- `HeaderExtension` of the capabilities. -/
structure HeaderExtension where
  kind : Option String := none
  uri : Option String := none
  preferredId : Option ℤ := none
  preferredEncrypt : Option Bool := none
  direction : Option String := none

instance : Model HeaderExtension where
  init := {}
  fields := [
    optional "kind" string (·.kind) fun a v => { a with kind := v },
    optional "uri" string (·.uri) fun a v => { a with uri := v },
    optional "preferredId" int32 (·.preferredId) fun a v => { a with preferredId := v },
    optional "preferredEncrypt" bool (·.preferredEncrypt)
      fun a v => { a with preferredEncrypt := v },
    optional "direction" string (·.direction) fun a v => { a with direction := v }]

def HeaderExtension.fields : List (String × Shape) :=
  [("kind", .string), ("uri", .string), ("preferredId", .int32), ("preferredEncrypt", .bool),
    ("direction", .string)]

@[simp] theorem HeaderExtension.has :
    (model HeaderExtension).Has (.object HeaderExtension.fields) :=
  has_model (by simp [Tabulated, Separate, Model.fields, Model.init, HeaderExtension.fields])

/-- `GetRouterRtpCapabilitiesResponse::Data` and `JoinRequest::RTPCapabilities`, by the parameters
    of their codecs. -/
structure RTPCapabilities (π : Type) where
  codecs : Option (List (CapabilityCodec π)) := none
  headerExtensions : Option (List HeaderExtension) := none

instance {π : Type} [Model π] : Model (RTPCapabilities π) where
  init := {}
  fields := [
    optional "codecs" (vector (model (CapabilityCodec π))) (·.codecs)
      fun a v => { a with codecs := v },
    optional "headerExtensions" (vector (model HeaderExtension)) (·.headerExtensions)
      fun a v => { a with headerExtensions := v }]

def RTPCapabilities.fields (parameters : List (String × Shape)) : List (String × Shape) :=
  [("codecs", .array (.object (CapabilityCodec.fields parameters))),
    ("headerExtensions", .array (.object HeaderExtension.fields))]

theorem RTPCapabilities.has {π : Type} [Model π] {parameters : List (String × Shape)}
    (h : (model π).Has (.object parameters)) :
    (model (RTPCapabilities π)).Has (.object (RTPCapabilities.fields parameters)) :=
  have hcodec := CapabilityCodec.has h
  has_model (by
    simp [Tabulated, Separate, Model.fields, Model.init, RTPCapabilities.fields, hcodec])

/-- `GetRouterRtpCapabilitiesResponse::Parameters`. -/
structure GetRouterRtpCapabilitiesResponse.Parameters where
  apt : Option ℤ := none
  levelAsymmetryAllowed : Option ℤ := none
  packetizationMode : Option ℤ := none
  profileLevelId : Option String := none
  xGoogleStartBitrate : Option ℤ := none

instance : Model GetRouterRtpCapabilitiesResponse.Parameters where
  init := {}
  fields := [
    optional "apt" int32 (·.apt) fun a v => { a with apt := v },
    optional "level-asymmetry-allowed" int32 (·.levelAsymmetryAllowed)
      fun a v => { a with levelAsymmetryAllowed := v },
    optional "packetization-mode" int32 (·.packetizationMode)
      fun a v => { a with packetizationMode := v },
    optional "profile-level-id" string (·.profileLevelId) fun a v => { a with profileLevelId := v },
    optional "x-google-start-bitrate" int32 (·.xGoogleStartBitrate)
      fun a v => { a with xGoogleStartBitrate := v }]

def GetRouterRtpCapabilitiesResponse.Parameters.fields : List (String × Shape) :=
  [("apt", .int32), ("level-asymmetry-allowed", .int32), ("packetization-mode", .int32),
    ("profile-level-id", .string), ("x-google-start-bitrate", .int32)]

@[simp] theorem GetRouterRtpCapabilitiesResponse.Parameters.has :
    (model GetRouterRtpCapabilitiesResponse.Parameters).Has
      (.object GetRouterRtpCapabilitiesResponse.Parameters.fields) :=
  has_model (by
    simp [Tabulated, Separate, Model.fields, Model.init,
      GetRouterRtpCapabilitiesResponse.Parameters.fields])

/-- `JoinRequest::Parameters`. The member `apt` is in the struct, but not in its `FIELDS_MAP`. -/
structure JoinRequest.Parameters where
  apt : Option ℤ := none
  levelAsymmetryAllowed : Option ℤ := none
  packetizationMode : Option ℤ := none
  profileLevelId : Option String := none
  xGoogleStartBitrate : Option ℤ := none
  minptime : Option ℤ := none
  useinbandfec : Option ℤ := none
  profileId : Option ℤ := none

instance : Model JoinRequest.Parameters where
  init := {}
  fields := [
    optional "level-asymmetry-allowed" int32 (·.levelAsymmetryAllowed)
      fun a v => { a with levelAsymmetryAllowed := v },
    optional "packetization-mode" int32 (·.packetizationMode)
      fun a v => { a with packetizationMode := v },
    optional "profile-level-id" string (·.profileLevelId) fun a v => { a with profileLevelId := v },
    optional "x-google-start-bitrate" int32 (·.xGoogleStartBitrate)
      fun a v => { a with xGoogleStartBitrate := v },
    optional "minptime" int32 (·.minptime) fun a v => { a with minptime := v },
    optional "useinbandfec" int32 (·.useinbandfec) fun a v => { a with useinbandfec := v },
    optional "profile-id" int32 (·.profileId) fun a v => { a with profileId := v }]

def JoinRequest.Parameters.fields : List (String × Shape) :=
  [("level-asymmetry-allowed", .int32), ("packetization-mode", .int32),
    ("profile-level-id", .string), ("x-google-start-bitrate", .int32), ("minptime", .int32),
    ("useinbandfec", .int32), ("profile-id", .int32)]

@[simp] theorem JoinRequest.Parameters.has :
    (model JoinRequest.Parameters).Has (.object JoinRequest.Parameters.fields) :=
  has_model (by simp [Tabulated, Separate, Model.fields, Model.init, JoinRequest.Parameters.fields])

/-! ### Parameters of a producer -/

/-- `ProduceRequest::Parameters`. -/
structure ProduceRequest.Parameters where
  apt : Option ℤ := none
  spropstereo : Option ℤ := none
  usedtx : Option ℤ := none
  minptime : Option ℤ := none
  useinbandfec : Option ℤ := none

instance : Model ProduceRequest.Parameters where
  init := {}
  fields := [
    optional "apt" int32 (·.apt) fun a v => { a with apt := v },
    optional "sprop-stereo" int32 (·.spropstereo) fun a v => { a with spropstereo := v },
    optional "usedtx" int32 (·.usedtx) fun a v => { a with usedtx := v },
    optional "minptime" int32 (·.minptime) fun a v => { a with minptime := v },
    optional "useinbandfec" int32 (·.useinbandfec) fun a v => { a with useinbandfec := v }]

def ProduceRequest.Parameters.fields : List (String × Shape) :=
  [("apt", .int32), ("sprop-stereo", .int32), ("usedtx", .int32), ("minptime", .int32),
    ("useinbandfec", .int32)]

@[simp] theorem ProduceRequest.Parameters.has :
    (model ProduceRequest.Parameters).Has (.object ProduceRequest.Parameters.fields) :=
  has_model (by
    simp [Tabulated, Separate, Model.fields, Model.init, ProduceRequest.Parameters.fields])

structure ProduceRequest.Codec where
  mimeType : Option String := none
  clockRate : Option ℤ := none
  channels : Option ℤ := none
  rtcpFeedback : Option (List RTCPFeedback) := none
  parameters : Option ProduceRequest.Parameters := none
  payloadType : Option ℤ := none

instance : Model ProduceRequest.Codec where
  init := {}
  fields := [
    optional "mimeType" string (·.mimeType) fun a v => { a with mimeType := v },
    optional "clockRate" int32 (·.clockRate) fun a v => { a with clockRate := v },
    optional "channels" int32 (·.channels) fun a v => { a with channels := v },
    optional "rtcpFeedback" (vector (model RTCPFeedback)) (·.rtcpFeedback)
      fun a v => { a with rtcpFeedback := v },
    optional "parameters" (model ProduceRequest.Parameters) (·.parameters)
      fun a v => { a with parameters := v },
    optional "payloadType" int32 (·.payloadType) fun a v => { a with payloadType := v }]

def ProduceRequest.Codec.fields : List (String × Shape) :=
  [("mimeType", .string), ("clockRate", .int32), ("channels", .int32),
    ("rtcpFeedback", .array (.object RTCPFeedback.fields)),
    ("parameters", .object ProduceRequest.Parameters.fields), ("payloadType", .int32)]

@[simp] theorem ProduceRequest.Codec.has :
    (model ProduceRequest.Codec).Has (.object ProduceRequest.Codec.fields) :=
  has_model (by simp [Tabulated, Separate, Model.fields, Model.init, ProduceRequest.Codec.fields])

/-- `HeaderExtension`, of the parameters of a producer and of a consumer. -/
abbrev ProduceRequest.HeaderExtension := NewConsumerRequest.HeaderExtension

def NewConsumerRequest.HeaderExtension.fields : List (String × Shape) :=
  [("id", .int32), ("uri", .string), ("encrypt", .bool)]

@[simp] theorem NewConsumerRequest.HeaderExtension.has :
    (model NewConsumerRequest.HeaderExtension).Has
      (.object NewConsumerRequest.HeaderExtension.fields) :=
  has_model (by
    simp [Tabulated, Separate, Model.fields, Model.init, NewConsumerRequest.HeaderExtension.fields])

structure ProduceRequest.Encoding where
  ssrc : Option ℤ := none
  active : Option Bool := none
  dtx : Option Bool := none
  maxBitrate : Option ℤ := none
  rid : Option String := none
  scalabilityMode : Option String := none
  scaleResolutionDownBy : Option ℚ := none

instance : Model ProduceRequest.Encoding where
  init := {}
  fields := [
    optional "ssrc" int64 (·.ssrc) fun a v => { a with ssrc := v },
    optional "active" bool (·.active) fun a v => { a with active := v },
    optional "dtx" bool (·.dtx) fun a v => { a with dtx := v },
    optional "maxBitrate" int32 (·.maxBitrate) fun a v => { a with maxBitrate := v },
    optional "rid" string (·.rid) fun a v => { a with rid := v },
    optional "scalabilityMode" string (·.scalabilityMode)
      fun a v => { a with scalabilityMode := v },
    optional "scaleResolutionDownBy" float (·.scaleResolutionDownBy)
      fun a v => { a with scaleResolutionDownBy := v }]

def ProduceRequest.Encoding.fields : List (String × Shape) :=
  [("ssrc", .int64), ("active", .bool), ("dtx", .bool), ("maxBitrate", .int32), ("rid", .string),
    ("scalabilityMode", .string), ("scaleResolutionDownBy", .float)]

@[simp] theorem ProduceRequest.Encoding.has :
    (model ProduceRequest.Encoding).Has (.object ProduceRequest.Encoding.fields) :=
  has_model (by
    simp [Tabulated, Separate, Model.fields, Model.init, ProduceRequest.Encoding.fields])

structure ProduceRequest.Rtcp where
  cname : Option String := none
  reducedSize : Option Bool := none

instance : Model ProduceRequest.Rtcp where
  init := {}
  fields := [
    optional "cname" string (·.cname) fun a v => { a with cname := v },
    optional "reducedSize" bool (·.reducedSize) fun a v => { a with reducedSize := v }]

def ProduceRequest.Rtcp.fields : List (String × Shape) :=
  [("cname", .string), ("reducedSize", .bool)]

@[simp] theorem ProduceRequest.Rtcp.has :
    (model ProduceRequest.Rtcp).Has (.object ProduceRequest.Rtcp.fields) :=
  has_model (by simp [Tabulated, Separate, Model.fields, Model.init, ProduceRequest.Rtcp.fields])

structure ProduceRequest.RTPParameters where
  encodings : Option (List ProduceRequest.Encoding) := none
  codecs : Option (List ProduceRequest.Codec) := none
  headerExtensions : Option (List ProduceRequest.HeaderExtension) := none
  mid : Option String := none
  rtcp : Option ProduceRequest.Rtcp := none

instance : Model ProduceRequest.RTPParameters where
  init := {}
  fields := [
    optional "encodings" (vector (model ProduceRequest.Encoding)) (·.encodings)
      fun a v => { a with encodings := v },
    optional "codecs" (vector (model ProduceRequest.Codec)) (·.codecs)
      fun a v => { a with codecs := v },
    optional "headerExtensions" (vector (model ProduceRequest.HeaderExtension)) (·.headerExtensions)
      fun a v => { a with headerExtensions := v },
    optional "mid" string (·.mid) fun a v => { a with mid := v },
    optional "rtcp" (model ProduceRequest.Rtcp) (·.rtcp) fun a v => { a with rtcp := v }]

def ProduceRequest.RTPParameters.fields : List (String × Shape) :=
  [("encodings", .array (.object ProduceRequest.Encoding.fields)),
    ("codecs", .array (.object ProduceRequest.Codec.fields)),
    ("headerExtensions", .array (.object NewConsumerRequest.HeaderExtension.fields)),
    ("mid", .string), ("rtcp", .object ProduceRequest.Rtcp.fields)]

@[simp] theorem ProduceRequest.RTPParameters.has :
    (model ProduceRequest.RTPParameters).Has (.object ProduceRequest.RTPParameters.fields) :=
  has_model (by
    simp [Tabulated, Separate, Model.fields, Model.init, ProduceRequest.RTPParameters.fields])

/-! ### Parameters of a consumer -/

def NewConsumerRequest.Parameters.fields : List (String × Shape) :=
  [("sprop-stereo", .int32), ("usedtx", .int32), ("minptime", .int32), ("useinbandfec", .int32)]

@[simp] theorem NewConsumerRequest.Parameters.has :
    (model NewConsumerRequest.Parameters).Has (.object NewConsumerRequest.Parameters.fields) :=
  has_model (by
    simp [Tabulated, Separate, Model.fields, Model.init, NewConsumerRequest.Parameters.fields])

def NewConsumerRequest.Codec.fields : List (String × Shape) :=
  [("mimeType", .string), ("clockRate", .int32), ("channels", .int32),
    ("rtcpFeedback", .array (.object RTCPFeedback.fields)),
    ("parameters", .object NewConsumerRequest.Parameters.fields), ("payloadType", .int32)]

@[simp] theorem NewConsumerRequest.Codec.has :
    (model NewConsumerRequest.Codec).Has (.object NewConsumerRequest.Codec.fields) :=
  has_model (by
    simp [Tabulated, Separate, Model.fields, Model.init, NewConsumerRequest.Codec.fields])

def NewConsumerRequest.RTX.fields : List (String × Shape) := [("ssrc", .int64)]

@[simp] theorem NewConsumerRequest.RTX.has :
    (model NewConsumerRequest.RTX).Has (.object NewConsumerRequest.RTX.fields) :=
  has_model (by simp [Tabulated, Separate, Model.fields, Model.init, NewConsumerRequest.RTX.fields])

def NewConsumerRequest.Encoding.fields : List (String × Shape) :=
  [("ssrc", .int64), ("maxBitrate", .int32), ("rtx", .object NewConsumerRequest.RTX.fields),
    ("scalabilityMode", .string)]

@[simp] theorem NewConsumerRequest.Encoding.has :
    (model NewConsumerRequest.Encoding).Has (.object NewConsumerRequest.Encoding.fields) :=
  has_model (by
    simp [Tabulated, Separate, Model.fields, Model.init, NewConsumerRequest.Encoding.fields])

def NewConsumerRequest.Rtcp.fields : List (String × Shape) :=
  [("cname", .string), ("mux", .bool), ("reducedSize", .bool)]

@[simp] theorem NewConsumerRequest.Rtcp.has :
    (model NewConsumerRequest.Rtcp).Has (.object NewConsumerRequest.Rtcp.fields) :=
  has_model (by
    simp [Tabulated, Separate, Model.fields, Model.init, NewConsumerRequest.Rtcp.fields])

def NewConsumerRequest.RTPParameters.fields : List (String × Shape) :=
  [("encodings", .array (.object NewConsumerRequest.Encoding.fields)),
    ("codecs", .array (.object NewConsumerRequest.Codec.fields)),
    ("headerExtensions", .array (.object NewConsumerRequest.HeaderExtension.fields)),
    ("mid", .string), ("rtcp", .object NewConsumerRequest.Rtcp.fields)]

@[simp] theorem NewConsumerRequest.RTPParameters.has :
    (model NewConsumerRequest.RTPParameters).Has
      (.object NewConsumerRequest.RTPParameters.fields) :=
  has_model (by
    simp [Tabulated, Separate, Model.fields, Model.init, NewConsumerRequest.RTPParameters.fields])

end MediasoupClient.Signaling
