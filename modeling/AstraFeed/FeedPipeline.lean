import AstraFeed.FeedSystem
import AstraFeed.MarketDataEngine
import AstraFeed.UdpBatchReceiver

/-!
# The pipeline

The sender, the two lines with the queues of their sockets, the receivers and the engine. What a
line loses, repeats or reorders does not arrive, arrives again or arrives late.
-/

namespace AstraFeed

structure FeedPipeline where
  sender : ItchMoldUdpSender
  lines : FeedLines
  engine : MarketDataEngine

/-- The sender goes on, a datagram that was sent some time comes into the queue of a line, or the
engine asks for a packet. -/
inductive PipelineEvent
  | choose (choice : SenderChoice)
  | arrive (line : Line) (index : ℕ) (drops : Option UInt32)
  | poll (outcome : Line → RecvOutcome) (ticks : Line → UInt64) (duration : UInt64)

namespace FeedPipeline

def create (config : SenderConfig) (file : BinaryFile) (books : BookManager)
    (engineConfig : EngineConfig) (batchSize : ℕ) : FeedPipeline where
  sender := .create config file
  lines := .create batchSize
  engine := .create (.create .fresh books 1) engineConfig

section Steps

variable (config : SenderConfig) (s : FeedPipeline)

def arrive (line : Line) (data : List UInt8) (drops : Option UInt32) : FeedPipeline :=
  { s with
    lines := s.lines.arrive line ⟨data, UdpBatchReceiver.kMaxPacketSize < data.length, drops⟩ }

/-- A round of the engine's loop. -/
def poll (outcome : Line → RecvOutcome) (ticks : Line → UInt64) (duration : UInt64) : FeedPipeline :=
  if !s.engine.running then s
  else
    let out := s.lines.next outcome ticks
    { s with
      lines := out.2
      engine := s.engine.step (out.1.map fun packet => ⟨packet, duration⟩) }

/-- An event that cannot happen is passed over. -/
def step : PipelineEvent → FeedPipeline
  | .choose choice => { s with sender := (s.sender.step config choice).getD s.sender }
  | .arrive line index drops =>
    match s.sender.wire[index]? with
    | some data => s.arrive line data drops
    | none => s
  | .poll outcome ticks duration => s.poll outcome ticks duration

def run (events : List PipelineEvent) : FeedPipeline := events.foldl (step config) s

end Steps

end FeedPipeline

end AstraFeed
