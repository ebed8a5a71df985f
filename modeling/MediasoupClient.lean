import MediasoupClient.Lib.StdMap
import MediasoupClient.Lib.Lts
import MediasoupClient.Lib.Positions
import MediasoupClient.Lazyutil.LogBounds
import MediasoupClient.Signaling.Matching
import MediasoupClient.Signaling.Queue
import MediasoupClient.Signaling.Protoo
import MediasoupClient.Signaling.FieldsMap
import MediasoupClient.Sdp.Representation
import MediasoupClient.Sdp.Recycling
import MediasoupClient.Sdp.Mirror
import MediasoupClient.Sdp.UnknownMid
import MediasoupClient.Sdp.IceLite
import MediasoupClient.Sdp.CodecMatching
import MediasoupClient.Sdp.LegacySimulcast
import MediasoupClient.Sdp.SimulcastAnswer
import MediasoupClient.Sdp.WellFormedSections
import MediasoupClient.Sdp.FaithfulCapabilities
import MediasoupClient.Sdp.CodecParameters
import MediasoupClient.Sdp.LetterCase
import MediasoupClient.Sdp.NormalForm
import MediasoupClient.Sdp.SctpStream
import MediasoupClient.Sdp.ReduceCodecs
import MediasoupClient.Sdp.HeaderExtensions
import MediasoupClient.Sdp.FeedbackReduction
import MediasoupClient.Api.Join
import MediasoupClient.Api.Router
import MediasoupClient.Api.Loading
import MediasoupClient.Api.Lookup
import MediasoupClient.Api.ReportedCname
import MediasoupClient.Control.IndexAgreement
import MediasoupClient.Control.Acknowledged
import MediasoupClient.Control.StereoNegotiation
import MediasoupClient.Threads.StopRequest
import MediasoupClient.Threads.Barrier
import MediasoupClient.Threads.ConnectPromise
import MediasoupClient.Websocket.WSSClient
import MediasoupClient.Lazyutil.Conversions
import MediasoupClient.Lib.Regex
import MediasoupClient.Sdptransform.AttributeLines
import MediasoupClient.Sdptransform.CapabilityParse
import MediasoupClient.Sdptransform.Reprint
import MediasoupClient.Sdptransform.OfferRules
import MediasoupClient.Sdptransform.ParsedSessions
import MediasoupClient.Sdptransform.Totality
