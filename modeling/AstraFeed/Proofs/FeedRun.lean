import AstraFeed.Proofs.ItchParser

/-!
# Refusals are atomic

In every state that messages and calls lead to, a message that leaves an error behind and an
operation that is not applied change nothing but diagnostics.
-/

namespace AstraFeed

open Function

theorem ItchError.text_ne_empty (e : ItchError) : e.text ≠ "" := by
  cases e with
  | bookFailure operation result => cases operation <;> cases result <;> decide
  | _ => decide

namespace ItchParser

variable {p : ItchParser}

theorem lastErrorText_ne_empty : p.lastErrorText ≠ "" ↔ p.lastError ≠ none := by
  unfold lastErrorText
  cases p.lastError with
  | none => simp
  | some e => exact iff_of_true e.text_ne_empty (by simp)

theorem sound_create {config : BookManagerConfig} {systemPageBytes : ℕ} {m : BookManager}
    (hm : BookManager.create config systemPageBytes = .ok m) (symbols : StockDirectory) :
    (ItchParser.create symbols m).Sound := ⟨_, refines_fresh hm⟩

theorem Sound.handleMessage (h : p.Sound) (msg : List UInt8) : (p.handleMessage msg).2.Sound :=
  (handleMessage_effect p msg).sound (p := p.cleared) h

theorem Sound.feedStep (h : p.Sound) (op : FeedOp) : (p.feedStep op).Sound := by
  cases op with
  | message msg => exact h.handleMessage msg
  | book op =>
    obtain ⟨b, h⟩ := h
    exact ⟨_, (h.perform op).refines⟩
  | register locate entry => exact h

theorem Sound.feedRun (h : p.Sound) (ops : List FeedOp) : (p.feedRun ops).Sound := by
  induction ops generalizing p with
  | nil => exact h
  | cons op ops ih => exact ih (h.feedStep op)

theorem handleMessage_kept (h : p.Sound) {msg : List UInt8}
    (herr : (p.handleMessage msg).2.lastError ≠ none) :
    Kept p (p.handleMessage msg).2 (spoiledBy msg (p.handleMessage msg).2.lastError) := by
  have hk := (handleMessage_effect p msg).kept (p := p.cleared) h rfl herr
  exact ⟨hk.channelPhase, hk.booksPrepared, hk.symbols, hk.books⟩

/-- A refused message, and a refused operation on the books, change nothing. -/
theorem refusal_keeps {config : BookManagerConfig} {systemPageBytes : ℕ} {m : BookManager}
    (hm : BookManager.create config systemPageBytes = .ok m) (ops : List FeedOp) :
    let p := (ItchParser.create .fresh m).feedRun ops
    (∀ msg, (p.handleMessage msg).2.lastErrorText ≠ "" →
      Kept p (p.handleMessage msg).2 (spoiledBy msg (p.handleMessage msg).2.lastError))
    ∧ ∀ op, (p.books.perform op).1 ≠ .applied →
      BooksKept p.books (p.books.perform op).2 (op.spoils (p.books.perform op).1) := by
  intro p
  have h : p.Sound := (sound_create hm .fresh).feedRun ops
  refine ⟨fun msg herr => handleMessage_kept h (lastErrorText_ne_empty.1 herr), fun op hne => ?_⟩
  obtain ⟨b, h⟩ := h
  exact booksKept_perform h op hne

/-! ## Refusals in the middle of a day -/

theorem feedRun_messages (messages : List (List UInt8)) :
    p.feedRun (messages.map .message) = p.feed messages := List.foldl_map

theorem feedRun_append (ops ops' : List FeedOp) :
    p.feedRun (ops ++ ops') = (p.feedRun ops).feedRun ops' := List.foldl_append

/-- Two stocks are registered before System Event S, then an order is added. -/
def tradingDay : List (List UInt8) :=
  [systemEvent 'O', registration 1 ['A'] 100, registration 2 ['B'] 100, systemEvent 'S',
    addition 1 ['A'] 1 10]

/-- Two orders are added besides, by calls. -/
def tradingOps : List FeedOp :=
  tradingDay.map .message ++ [.book (.addOrder 1 2 100 10 (byte 'B') 0),
    .book (.addOrder 2 3 200 10 (byte 'S') 0)]

/-- A second order under a reference, a replacement by a reference in use, and another ticker. -/
def refusedMessages : List (List UInt8) :=
  [addition 1 ['A'] 1 10, replacement 1 2 3 10, registration 1 ['C'] 100]

theorem feedRun_tradingOps {books : BookManager}
    (hphase : ((create .fresh books).feed (tradingDay.take 3)).channelPhase
      = .startupDirectorySpin)
    (hprep : ((create .fresh books).feed (tradingDay.take 3)).booksPrepared = false) :
    (create .fresh books).feedRun tradingOps
      = (((create .fresh books).feed (tradingDay.take 3)).startedBelow 2).feedRun
        (tradingOps.drop 4) := by
  have hday : (create .fresh books).feed tradingDay
      = (((create .fresh books).feed (tradingDay.take 3)).startedBelow 2).feed
        [addition 1 ['A'] 1 10] :=
    feed_startedBelow hphase hprep (by decide) (by decide) _
  unfold tradingOps
  rw [feedRun_append, feedRun_messages, hday, ← feedRun_messages, ← feedRun_append]
  rfl

/-- On live books: the refused messages leave the orders live, and so does a cancellation of more
shares than an order has. -/
theorem refusal_keeps_tradingDay : ∃ m, BookManager.create ⟨⟨8, 1⟩, ⟨2⟩⟩ 4096 = .ok m
    ∧ let p := (ItchParser.create .fresh m).feedRun tradingOps
      let canceled := p.books.perform (.cancelShares 1 2 11 0)
      p.lastError = none
      ∧ (∀ msg ∈ refusedMessages, (p.handleMessage msg).2.lastErrorText ≠ ""
        ∧ Kept p (p.handleMessage msg).2 (spoiledBy msg (p.handleMessage msg).2.lastError)
        ∧ ((p.handleMessage msg).2.books.orders.live 1).isSome = true)
      ∧ canceled.1 = .quantityExceeded ∧ (canceled.2.orders.live 2).isSome = true := by
  obtain ⟨m, hm, hphase, hprep, herror, hlive, hlive', hadd, hreplace, hdirectory, hcancel⟩ :
      ∃ m, BookManager.create ⟨⟨8, 1⟩, ⟨2⟩⟩ 4096 = .ok m
      ∧ let p := (ItchParser.create .fresh m).feed (tradingDay.take 3)
        let q := (p.startedBelow 2).feedRun (tradingOps.drop 4)
        p.channelPhase = .startupDirectorySpin ∧ p.booksPrepared = false ∧ q.lastError = none
        ∧ (q.books.orders.live 1).isSome = true ∧ (q.books.orders.live 2).isSome = true
        ∧ (q.handleMessage (addition 1 ['A'] 1 10)).2.lastError
          = some (.bookFailure .addOrder .duplicateOrderRef)
        ∧ (q.handleMessage (replacement 1 2 3 10)).2.lastError
          = some (.bookFailure .orderReplace .duplicateOrderRef)
        ∧ (q.handleMessage (registration 1 ['C'] 100)).2.lastError = some .conflictingTicker
        ∧ (q.books.perform (.cancelShares 1 2 11 0)).1 = .quantityExceeded :=
    ⟨_, rfl, by decide +kernel, by decide +kernel, by decide +kernel, by decide +kernel,
      by decide +kernel, by decide +kernel, by decide +kernel, by decide +kernel,
      by decide +kernel⟩
  obtain ⟨hmessage, hop⟩ := refusal_keeps hm tradingOps
  rw [← feedRun_tradingOps hphase hprep] at herror hlive hlive' hadd hreplace hdirectory hcancel
  refine ⟨m, hm, herror, fun msg hmsg => ?_, hcancel, ?_⟩
  · have hrefused : (((create .fresh m).feedRun tradingOps).handleMessage msg).2.lastErrorText
        ≠ "" := by
      rw [lastErrorText_ne_empty]
      simp only [refusedMessages, List.mem_cons, List.not_mem_nil, or_false] at hmsg
      rcases hmsg with rfl | rfl | rfl
      · simp [hadd]
      · simp [hreplace]
      · simp [hdirectory]
    have hkept := hmessage msg hrefused
    exact ⟨hrefused, hkept, (congrArg Option.isSome (hkept.books.live 1)).trans hlive⟩
  · have hkept := hop (.cancelShares 1 2 11 0) (by rw [hcancel]; decide)
    exact (congrArg Option.isSome (hkept.live 2)).trans hlive'

end ItchParser

end AstraFeed
