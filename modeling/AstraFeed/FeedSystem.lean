import AstraFeed.DecoderRun
import AstraFeed.ItchMoldUdpSender

/-!
# The feed

The sender and the decoder, with lines in between that lose datagrams, repeat them and change their
order.
-/

namespace AstraFeed

/-- `delivered` records what arrived. -/
structure FeedSystem where
  sender : ItchMoldUdpSender
  decoder : MoldUdpDecoder
  delivered : List PacketView

/-- The sender goes on, or a datagram that was sent some time arrives, maybe not for the first
time. -/
inductive FeedEvent
  | choose (choice : SenderChoice)
  | deliver (index : ℕ) (ticks : UInt64)

namespace FeedSystem

def create (config : SenderConfig) (file : BinaryFile) (books : BookManager) : FeedSystem where
  sender := .create config file
  decoder := .create .fresh books 1
  delivered := []

section Steps

variable (config : SenderConfig) (s : FeedSystem)

def deliver (packet : PacketView) : FeedSystem :=
  { s with
    decoder := (s.decoder.processPacket packet).2
    delivered := s.delivered ++ [packet] }

/-- An event that cannot happen is passed over. -/
def step : FeedEvent → FeedSystem
  | .choose choice => { s with sender := (s.sender.step config choice).getD s.sender }
  | .deliver index ticks =>
    match s.sender.wire[index]? with
    | some data => s.deliver ⟨data, ticks⟩
    | none => s

def run (events : List FeedEvent) : FeedSystem := events.foldl (step config) s

end Steps

end FeedSystem

end AstraFeed
