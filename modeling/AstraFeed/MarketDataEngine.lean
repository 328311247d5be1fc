import AstraFeed.LatencyRecorder
import AstraFeed.MoldUdpDecoder

/-!
# The engine

The engine takes packets from a source, hands them to the decoder and records the latency the
decoder reports, until the stream ends or the decoder fails.
-/

namespace AstraFeed

/-- The stage latency metrics are read by nothing. -/
structure EngineConfig where
  enableLatencyMetrics : Bool := true
  stopOnDecodeError : Bool := false
  stopOnSequenceGap : Bool := false

/-- A packet with the mean latency the clock measures for its messages. -/
structure Arrival where
  packet : PacketView
  duration : UInt64

structure MarketDataEngine where
  processor : MoldUdpDecoder
  latencyRecorder : LatencyRecorder
  config : EngineConfig
  running : Bool

namespace MarketDataEngine

def create (processor : MoldUdpDecoder) (config : EngineConfig) : MarketDataEngine where
  processor := processor
  latencyRecorder := .fresh
  config := config
  running := true

section Loop

variable (e : MarketDataEngine)

def stop : MarketDataEngine := { e with running := false }

/-- What the loop does with the decoder's result. -/
def handleResult (result : DecodeResult) (duration : UInt64) : MarketDataEngine :=
  if result.status = .endOfStream then e.stop
  else if result.status ≠ .ok then
    if isTerminalDecodeFailure result.status ∨ e.config.stopOnDecodeError then e.stop else e
  else if result.hadGap ∧ e.config.stopOnSequenceGap then e.stop
  else if e.config.enableLatencyMetrics ∧ result.latencySampleCount ≠ 0 then
    { e with
      latencyRecorder := e.latencyRecorder.recordDuration duration result.latencySampleCount }
  else e

/-- The body of the loop; `none` is a source that has no packet yet. -/
def step (next : Option Arrival) : MarketDataEngine :=
  if !e.running then e
  else
    match next with
    | none => e
    | some arrival =>
      let out := e.processor.processPacket arrival.packet
      { e with processor := out.2 }.handleResult out.1 arrival.duration

/-- The loop over what the source gives. -/
def run (source : List (Option Arrival)) : MarketDataEngine := source.foldl step e

end Loop

end MarketDataEngine

end AstraFeed
