import MediasoupClient.Signaling.Serialization

/-! The signaling messages this development follows (mssignal/signaling_models.h).

    Each struct is given with its `FIELDS_MAP`, in the declared order: the order decides which
    fields a failing decode has already filled in. Every member is an `absl::optional`; the inbound
    models have no default initialisers. -/

namespace MediasoupClient.Signaling

/-- `MSGTYPE`. -/
inductive MSGTYPE where | unknow | request | response | notify
  deriving DecidableEq, Repr

structure CommonHeader where
  request : Option Bool := none
  response : Option Bool := none
  notification : Option Bool := none
  method : Option String := none
  id : Option ℤ := none
  ok : Option Bool := none
  deriving DecidableEq, Repr

instance : Model CommonHeader where
  init := {}
  fields := [
    optional "request" bool (·.request) fun a v => { a with request := v },
    optional "response" bool (·.response) fun a v => { a with response := v },
    optional "notification" bool (·.notification) fun a v => { a with notification := v },
    optional "id" int64 (·.id) fun a v => { a with id := v },
    optional "method" string (·.method) fun a v => { a with method := v },
    optional "ok" bool (·.ok) fun a v => { a with ok := v }]

/-- `CommonHeader::msgType`: the first flag that is present and true decides. -/
def CommonHeader.msgType (h : CommonHeader) : MSGTYPE :=
  if h.request = some true then .request
  else if h.response = some true then .response
  else if h.notification = some true then .notify
  else .unknow

structure BasicResponse where
  response : Option Bool := none
  id : Option ℤ := none
  ok : Option Bool := none
  deriving DecidableEq, Repr

instance : Model BasicResponse where
  init := {}
  fields := [
    optional "response" bool (·.response) fun a v => { a with response := v },
    optional "id" int64 (·.id) fun a v => { a with id := v },
    optional "ok" bool (·.ok) fun a v => { a with ok := v }]

/-! ### `newDataConsumer` -/

namespace NewDataConsumerRequest

structure AppData where
  peerId : Option String := none
  deriving DecidableEq, Repr

instance : Model AppData where
  init := {}
  fields := [optional "peerId" string (·.peerId) fun a v => { a with peerId := v }]

structure SCTPStreamParameters where
  streamId : Option ℤ := none
  ordered : Option Bool := none
  deriving DecidableEq, Repr

instance : Model SCTPStreamParameters where
  init := {}
  fields := [
    optional "streamId" int32 (·.streamId) fun a v => { a with streamId := v },
    optional "ordered" bool (·.ordered) fun a v => { a with ordered := v }]

structure Data where
  id : Option String := none
  peerId : Option String := none
  dataProducerId : Option String := none
  label : Option String := none
  protocol : Option String := none
  sctpStreamParameters : Option SCTPStreamParameters := none
  appData : Option AppData := none
  deriving DecidableEq, Repr

instance : Model Data where
  init := {}
  fields := [
    optional "id" string (·.id) fun a v => { a with id := v },
    optional "peerId" string (·.peerId) fun a v => { a with peerId := v },
    optional "dataProducerId" string (·.dataProducerId) fun a v => { a with dataProducerId := v },
    optional "label" string (·.label) fun a v => { a with label := v },
    optional "protocol" string (·.protocol) fun a v => { a with protocol := v },
    optional "sctpStreamParameters" (model SCTPStreamParameters) (·.sctpStreamParameters)
      fun a v => { a with sctpStreamParameters := v },
    optional "appData" (model AppData) (·.appData) fun a v => { a with appData := v }]

end NewDataConsumerRequest

structure NewDataConsumerRequest where
  request : Option Bool := none
  id : Option ℤ := none
  method : Option String := none
  data : Option NewDataConsumerRequest.Data := none
  deriving DecidableEq, Repr

instance : Model NewDataConsumerRequest where
  init := {}
  fields := [
    optional "request" bool (·.request) fun a v => { a with request := v },
    optional "id" int64 (·.id) fun a v => { a with id := v },
    optional "method" string (·.method) fun a v => { a with method := v },
    optional "data" (model NewDataConsumerRequest.Data) (·.data) fun a v => { a with data := v }]

/-! ### `newConsumer` -/

namespace NewConsumerRequest

structure AppData where
  peerId : Option String := none
  deriving DecidableEq, Repr

instance : Model AppData where
  init := {}
  fields := [optional "peerId" string (·.peerId) fun a v => { a with peerId := v }]

structure RTCPFeedback where
  type : Option String := none
  parameter : Option String := none
  deriving DecidableEq, Repr

instance : Model RTCPFeedback where
  init := {}
  fields := [
    optional "type" string (·.type) fun a v => { a with type := v },
    optional "parameter" string (·.parameter) fun a v => { a with parameter := v }]

structure Parameters where
  spropstereo : Option ℤ := none
  minptime : Option ℤ := none
  useinbandfec : Option ℤ := none
  usedtx : Option ℤ := none
  deriving DecidableEq, Repr

instance : Model Parameters where
  init := {}
  fields := [
    optional "sprop-stereo" int32 (·.spropstereo) fun a v => { a with spropstereo := v },
    optional "usedtx" int32 (·.usedtx) fun a v => { a with usedtx := v },
    optional "minptime" int32 (·.minptime) fun a v => { a with minptime := v },
    optional "useinbandfec" int32 (·.useinbandfec) fun a v => { a with useinbandfec := v }]

structure Codec where
  mimeType : Option String := none
  clockRate : Option ℤ := none
  channels : Option ℤ := none
  rtcpFeedback : Option (List RTCPFeedback) := none
  parameters : Option Parameters := none
  payloadType : Option ℤ := none
  deriving DecidableEq, Repr

instance : Model Codec where
  init := {}
  fields := [
    optional "mimeType" string (·.mimeType) fun a v => { a with mimeType := v },
    optional "clockRate" int32 (·.clockRate) fun a v => { a with clockRate := v },
    optional "channels" int32 (·.channels) fun a v => { a with channels := v },
    optional "rtcpFeedback" (vector (model RTCPFeedback)) (·.rtcpFeedback)
      fun a v => { a with rtcpFeedback := v },
    optional "parameters" (model Parameters) (·.parameters) fun a v => { a with parameters := v },
    optional "payloadType" int32 (·.payloadType) fun a v => { a with payloadType := v }]

structure HeaderExtension where
  id : Option ℤ := none
  encrypt : Option Bool := none
  uri : Option String := none
  deriving DecidableEq, Repr

instance : Model HeaderExtension where
  init := {}
  fields := [
    optional "id" int32 (·.id) fun a v => { a with id := v },
    optional "uri" string (·.uri) fun a v => { a with uri := v },
    optional "encrypt" bool (·.encrypt) fun a v => { a with encrypt := v }]

structure RTX where
  ssrc : Option ℤ := none
  deriving DecidableEq, Repr

instance : Model RTX where
  init := {}
  fields := [optional "ssrc" int64 (·.ssrc) fun a v => { a with ssrc := v }]

structure Encoding where
  maxBitrate : Option ℤ := none
  ssrc : Option ℤ := none
  rtx : Option RTX := none
  scalabilityMode : Option String := none
  deriving DecidableEq, Repr

instance : Model Encoding where
  init := {}
  fields := [
    optional "ssrc" int64 (·.ssrc) fun a v => { a with ssrc := v },
    optional "maxBitrate" int32 (·.maxBitrate) fun a v => { a with maxBitrate := v },
    optional "rtx" (model RTX) (·.rtx) fun a v => { a with rtx := v },
    optional "scalabilityMode" string (·.scalabilityMode)
      fun a v => { a with scalabilityMode := v }]

structure Rtcp where
  cname : Option String := none
  mux : Option Bool := none
  reducedSize : Option Bool := none
  deriving DecidableEq, Repr

instance : Model Rtcp where
  init := {}
  fields := [
    optional "cname" string (·.cname) fun a v => { a with cname := v },
    optional "mux" bool (·.mux) fun a v => { a with mux := v },
    optional "reducedSize" bool (·.reducedSize) fun a v => { a with reducedSize := v }]

structure RTPParameters where
  encodings : Option (List Encoding) := none
  codecs : Option (List Codec) := none
  headerExtensions : Option (List HeaderExtension) := none
  mid : Option String := none
  rtcp : Option Rtcp := none
  deriving DecidableEq, Repr

instance : Model RTPParameters where
  init := {}
  fields := [
    optional "encodings" (vector (model Encoding)) (·.encodings)
      fun a v => { a with encodings := v },
    optional "codecs" (vector (model Codec)) (·.codecs) fun a v => { a with codecs := v },
    optional "headerExtensions" (vector (model HeaderExtension)) (·.headerExtensions)
      fun a v => { a with headerExtensions := v },
    optional "mid" string (·.mid) fun a v => { a with mid := v },
    optional "rtcp" (model Rtcp) (·.rtcp) fun a v => { a with rtcp := v }]

structure Data where
  id : Option String := none
  peerId : Option String := none
  type : Option String := none
  kind : Option String := none
  producerId : Option String := none
  producerPaused : Option Bool := none
  rtpParameters : Option RTPParameters := none
  appData : Option AppData := none
  deriving DecidableEq, Repr

instance : Model Data where
  init := {}
  fields := [
    optional "id" string (·.id) fun a v => { a with id := v },
    optional "peerId" string (·.peerId) fun a v => { a with peerId := v },
    optional "kind" string (·.kind) fun a v => { a with kind := v },
    optional "type" string (·.type) fun a v => { a with type := v },
    optional "producerId" string (·.producerId) fun a v => { a with producerId := v },
    optional "producerPaused" bool (·.producerPaused) fun a v => { a with producerPaused := v },
    optional "rtpParameters" (model RTPParameters) (·.rtpParameters)
      fun a v => { a with rtpParameters := v },
    optional "appData" (model AppData) (·.appData) fun a v => { a with appData := v }]

end NewConsumerRequest

structure NewConsumerRequest where
  request : Option Bool := none
  id : Option ℤ := none
  method : Option String := none
  data : Option NewConsumerRequest.Data := none
  deriving DecidableEq, Repr

instance : Model NewConsumerRequest where
  init := {}
  fields := [
    optional "request" bool (·.request) fun a v => { a with request := v },
    optional "id" int64 (·.id) fun a v => { a with id := v },
    optional "method" string (·.method) fun a v => { a with method := v },
    optional "data" (model NewConsumerRequest.Data) (·.data) fun a v => { a with data := v }]

end MediasoupClient.Signaling
