import AstraFeed.CheckedStore
import AstraFeed.Proofs.StoreMove

/-!
# The price store stays inside its arrays

Whatever the arrays hold, an operation of the store is the operation with its accesses checked, as
long as there are no more pages committed than the arrays have room for. What an operation reads
from a summary or a bitmap it checks before it uses it as an index.
-/

namespace AstraFeed

open Bounded WordBits

namespace CheckedBitmap

open PriceBitmap (kNumBits kL0Words kL1Words kInvalid kValidL2Mask)

variable {s : PriceBitmapStorage} {idx : ℕ}

/-! ## Words and bits -/

theorem bit_lt (i : ℕ) : i &&& 63 < 64 := by
  rw [PriceBitmap.and_sixtyThree]
  exact Nat.mod_lt _ (by decide)

theorem shiftRight_lt {i n : ℕ} (h : i < n * 64) : i >>> 6 < n := by
  rw [PriceBitmap.shiftRight_six]
  exact Nat.div_lt_of_lt_mul (by rwa [Nat.mul_comm])

theorem shiftLeft_lt {a b n : ℕ} (ha : a < n) (hb : b < 64) : a <<< 6 ||| b < n * 64 := by
  rw [PriceBitmap.shiftLeft_or hb]
  omega

theorem l1Word_lt {w0 : ℕ} (h : w0 < kL0Words) : w0 >>> 6 < kL1Words := shiftRight_lt h

theorem l1Word_lt_width {w0 : ℕ} (h : w0 < kL0Words) : w0 >>> 6 < 64 :=
  (l1Word_lt h).trans (by decide)

theorem l0Word_lt {w1 b : ℕ} (h : w1 < kL1Words) (hb : b < 64) : w1 <<< 6 ||| b < kL0Words :=
  shiftLeft_lt h hb

theorem set_eq (h : idx < kNumBits) : set s idx = some (PriceBitmap.set s idx) := by
  have h0 : idx >>> 6 < kL0Words := shiftRight_lt h
  unfold set
  dsimp only
  rw [read_eq h0, shl_eq (bit_lt _), read_eq (l1Word_lt h0), shl_eq (bit_lt _),
    shl_eq (l1Word_lt_width h0)]
  simp only [Option.bind_eq_bind, Option.bind_some, write_eq h0, write_eq (l1Word_lt h0)]
  rfl

theorem reset_eq (h : idx < kNumBits) : reset s idx = some (PriceBitmap.reset s idx) := by
  have h0 : idx >>> 6 < kL0Words := shiftRight_lt h
  unfold reset PriceBitmap.reset
  dsimp only
  rw [read_eq h0, shl_eq (bit_lt _), read_eq (l1Word_lt h0), shl_eq (bit_lt _),
    shl_eq (l1Word_lt_width h0)]
  simp only [Option.bind_eq_bind, Option.bind_some, write_eq h0, write_eq (l1Word_lt h0),
    read_eq h0, read_eq (l1Word_lt h0)]
  refine ite_some (fun _ => rfl) fun _ => ite_some (fun _ => rfl) fun _ => rfl

theorem test_eq (h : idx < kNumBits) : test s idx = some (PriceBitmap.test s idx) := by
  unfold test
  rw [read_eq (shiftRight_lt h)]
  dsimp only [Option.bind_eq_bind, Option.bind_some]
  rw [shr_eq (bit_lt _)]
  rfl

/-! ## Searches -/

theorem maskAtOrBelow_eq (bit : ℕ) : maskAtOrBelow bit = some (PriceBitmap.maskAtOrBelow bit) :=
  shr_eq (by omega) _

theorem maskBelow_eq {bit : ℕ} (h : bit < 64) :
    maskBelow bit = some (PriceBitmap.maskBelow bit) :=
  ite_some (fun _ => rfl) fun _ => shr_eq (by omega) _

theorem maskAtOrAbove_eq {bit : ℕ} (h : bit < 64) :
    maskAtOrAbove bit = some (PriceBitmap.maskAtOrAbove bit) := shl_eq h _

theorem maskAbove_eq {bit : ℕ} (h : bit < 64) :
    maskAbove bit = some (PriceBitmap.maskAbove bit) :=
  ite_some (fun _ => rfl) fun _ => shl_eq (by omega) _

/-- Only the words there are have their bits looked at. -/
theorem l2Bits_lt {mask : BitVec 64} {i : ℕ}
    (h : (s.l2 &&& kValidL2Mask &&& mask).getLsbD i = true) : i < kL1Words := by
  rw [BitVec.getLsbD_and, BitVec.getLsbD_and, PriceBitmap.getLsbD_kValidL2Mask] at h
  simp only [Bool.and_eq_true, decide_eq_true_eq] at h
  exact h.1.2

theorem findHighestAtOrBelow_eq (s : PriceBitmapStorage) (idx : ℕ) :
    findHighestAtOrBelow s idx = some (PriceBitmap.findHighestAtOrBelow s idx) := by
  have hclamp : (if kNumBits ≤ idx then kNumBits - 1 else idx) < kL0Words * 64 := by
    unfold kNumBits kL0Words
    split <;> omega
  unfold findHighestAtOrBelow PriceBitmap.findHighestAtOrBelow
  generalize (if kNumBits ≤ idx then kNumBits - 1 else idx) = i at hclamp
  have h0 := shiftRight_lt hclamp
  have h1 := l1Word_lt h0
  dsimp only
  rw [read_eq h0, maskAtOrBelow_eq, read_eq h1, maskBelow_eq (bit_lt _),
    maskBelow_eq (l1Word_lt_width h0)]
  refine ite_some (fun _ => rfl) fun _ => ite_some (fun hl1 => ?_) fun _ =>
    ite_some (fun _ => rfl) fun hl2 => ?_
  · rw [read_eq (l0Word_lt h1 (bitHigh_lt hl1))]
    rfl
  · have hw1 := l2Bits_lt (getLsbD_bitHigh hl2)
    rw [read_eq hw1]
    refine ite_some (fun _ => rfl) fun hchild => ?_
    rw [read_eq (l0Word_lt hw1 (bitHigh_lt hchild))]
    rfl

theorem findLowestAtOrAbove_eq (s : PriceBitmapStorage) (idx : ℕ) :
    findLowestAtOrAbove s idx = some (PriceBitmap.findLowestAtOrAbove s idx) := by
  unfold findLowestAtOrAbove PriceBitmap.findLowestAtOrAbove
  refine ite_some (fun _ => rfl) fun hidx => ?_
  have h0 : idx >>> 6 < kL0Words := shiftRight_lt (Nat.not_le.1 hidx)
  have h1 := l1Word_lt h0
  dsimp only
  rw [read_eq h0, maskAtOrAbove_eq (bit_lt _), read_eq h1, maskAbove_eq (bit_lt _),
    maskAbove_eq (l1Word_lt_width h0)]
  refine ite_some (fun _ => rfl) fun _ => ite_some (fun hl1 => ?_) fun _ =>
    ite_some (fun _ => rfl) fun hl2 => ?_
  · rw [read_eq (l0Word_lt h1 (bitLow_lt hl1))]
    rfl
  · have hw1 := l2Bits_lt (getLsbD_bitLow hl2)
    rw [read_eq hw1]
    refine ite_some (fun _ => rfl) fun hchild => ?_
    rw [read_eq (l0Word_lt hw1 (bitLow_lt hchild))]
    rfl

/-! ## What a search finds -/

theorem ite_found {c : Prop} [Decidable c] {a b : ℕ} (ha : c → a = kInvalid ∨ a < kNumBits)
    (hb : ¬ c → b = kInvalid ∨ b < kNumBits) :
    (if c then a else b) = kInvalid ∨ (if c then a else b) < kNumBits := by
  split
  · exact ha ‹_›
  · exact hb ‹_›

theorem findHighestAtOrBelow_found (s : PriceBitmapStorage) (idx : ℕ) :
    PriceBitmap.findHighestAtOrBelow s idx = kInvalid
      ∨ PriceBitmap.findHighestAtOrBelow s idx < kNumBits := by
  have hclamp : (if kNumBits ≤ idx then kNumBits - 1 else idx) < kL0Words * 64 := by
    unfold kNumBits kL0Words
    split <;> omega
  unfold PriceBitmap.findHighestAtOrBelow
  generalize (if kNumBits ≤ idx then kNumBits - 1 else idx) = i at hclamp
  have h0 := shiftRight_lt hclamp
  have h1 := l1Word_lt h0
  refine ite_found (fun h => .inr (shiftLeft_lt h0 (bitHigh_lt h))) fun _ =>
    ite_found (fun hl1 => ite_found (fun _ => .inl rfl) fun h => .inr ?_) fun _ =>
    ite_found (fun _ => .inl rfl) fun hl2 => ite_found (fun _ => .inl rfl) fun hchild =>
    ite_found (fun _ => .inl rfl) fun h => .inr ?_
  · exact shiftLeft_lt (l0Word_lt h1 (bitHigh_lt hl1)) (bitHigh_lt h)
  · exact shiftLeft_lt (l0Word_lt (l2Bits_lt (getLsbD_bitHigh hl2)) (bitHigh_lt hchild))
      (bitHigh_lt h)

theorem findLowestAtOrAbove_found (s : PriceBitmapStorage) (idx : ℕ) :
    PriceBitmap.findLowestAtOrAbove s idx = kInvalid
      ∨ PriceBitmap.findLowestAtOrAbove s idx < kNumBits := by
  unfold PriceBitmap.findLowestAtOrAbove
  refine ite_found (fun _ => .inl rfl) fun hidx => ?_
  have h0 : idx >>> 6 < kL0Words := shiftRight_lt (Nat.not_le.1 hidx)
  have h1 := l1Word_lt h0
  refine ite_found (fun h => .inr (shiftLeft_lt h0 (bitLow_lt h))) fun _ =>
    ite_found (fun hl1 => ite_found (fun _ => .inl rfl) fun h => .inr ?_) fun _ =>
    ite_found (fun _ => .inl rfl) fun hl2 => ite_found (fun _ => .inl rfl) fun hchild =>
    ite_found (fun _ => .inl rfl) fun h => .inr ?_
  · exact shiftLeft_lt (l0Word_lt h1 (bitLow_lt hl1)) (bitLow_lt h)
  · exact shiftLeft_lt (l0Word_lt (l2Bits_lt (getLsbD_bitLow hl2)) (bitLow_lt hchild))
      (bitLow_lt h)

end CheckedBitmap

namespace CheckedStore

open PriceLevelStore (sideIndex pageSideIndex bookSideIndex validSide better sideIndex_lt)

variable {s : PriceLevelStore} {handle : UInt32} {l p : UInt16} {a : PriceAddress}
  {side : OrderSide}

/-! ## Elements -/

/-- The arrays have room for the page of the handle. -/
def Backed (s : PriceLevelStore) (handle : UInt32) : Prop :=
  handle ≠ kInvalidPricePageHandle ∧ handle ≤ s.config.pageCapacity

theorem Backed.handle_lt (h : Backed s handle) : handle.toNat < handleSlots s :=
  Nat.lt_succ_of_le (UInt32.le_iff_toNat_le.1 h.2)

theorem Backed.slot_lt (h : Backed s handle) : (handle - 1).toNat < pageSlots s := by
  have h0 : handle.toNat ≠ 0 := fun hz => h.1 (UInt32.toNat_inj.1 hz)
  have hsub : (handle - 1).toNat = handle.toNat - 1 := UInt32.toNat_sub_of_le _ _
    (UInt32.le_iff_toNat_le.2 (Nat.one_le_iff_ne_zero.2 h0))
  have hle := UInt32.le_iff_toNat_le.1 h.2
  unfold pageSlots
  omega

theorem Backed.side_lt (h : Backed s handle) (side : OrderSide) :
    pageSideIndex handle side < handleSlots s * kSideCount := by
  have := h.handle_lt
  have := sideIndex_lt side
  unfold pageSideIndex kSideCount
  omega

theorem bookSide_lt (l : UInt16) (side : OrderSide) :
    bookSideIndex l side < kStockLocateSlots * kSideCount := by
  have : l.toNat < kStockLocateSlots := l.toNat_lt
  have := sideIndex_lt side
  unfold bookSideIndex kSideCount
  omega

theorem rootIndex_lt (l p : UInt16) : priceRootIndex l p < kPriceRootSlotCount := by
  have hl : l.toNat < 65536 := l.toNat_lt
  have hp : p.toNat < 65536 := p.toNat_lt
  rw [priceRootIndex_eq]
  unfold kPriceRootSlotCount kStockLocateSlots kPricePartCount
  omega

section Elements

variable (h : Backed s handle)

include h

theorem pageOwner_eq : pageOwner s handle = some (s.pageOwners handle.toNat) :=
  read_eq h.handle_lt _

theorem pageSummary_eq : pageSummary s handle side = some (s.pageSummary handle side) := by
  unfold pageSummary
  rw [read_eq h.handle_lt]
  exact read_eq (sideIndex_lt side) _

theorem pageBitmap_eq : pageBitmap s handle side = some (s.pageBitmap handle side) :=
  read_eq (h.side_lt side) _

theorem setPageSummary_eq (v : PageSideSummary) :
    setPageSummary s handle side v = some (s.setPageSummary handle side v) := by
  unfold setPageSummary
  rw [read_eq h.handle_lt]
  dsimp only [Option.bind_eq_bind, Option.bind_some]
  rw [write_eq (show sideIndex side < kSideCount from sideIndex_lt side), Option.bind_some,
    write_eq h.handle_lt]
  rfl

theorem setPageBitmap_eq (v : PriceBitmapStorage) :
    setPageBitmap s handle side v = some (s.setPageBitmap handle side v) := by
  unfold setPageBitmap
  rw [write_eq (h.side_lt side)]
  rfl

end Elements

theorem levelUnchecked_eq (h : Backed s a.pageHandle) :
    levelUnchecked s a side = some (s.levelUnchecked a side) := by
  unfold levelUnchecked
  rw [read_eq h.slot_lt]
  exact ite_some (fun _ => read_eq a.levelIndex.toNat_lt _) fun _ => read_eq a.levelIndex.toNat_lt _

theorem levelAt_eq (h : Backed s handle) (i : UInt16) :
    levelUnchecked s ⟨handle, i⟩ side = some (s.levelUnchecked ⟨handle, i⟩ side) :=
  levelUnchecked_eq (a := ⟨handle, i⟩) h

theorem setLevel_eq (h : Backed s a.pageHandle) (v : PriceLevelState) :
    setLevel s a side v = some (s.setLevel a side v) := by
  have hpage : ∀ pricePage, setPageLevel pricePage side a.levelIndex v
      = some (if side = .buy then
          { pricePage with bids := Function.update pricePage.bids a.levelIndex.toNat v }
        else { pricePage with asks := Function.update pricePage.asks a.levelIndex.toNat v }) :=
    fun pricePage => ite_some
      (fun _ => by rw [write_eq (show _ < kPricePartCount from a.levelIndex.toNat_lt)]; rfl)
      fun _ => by rw [write_eq (show _ < kPricePartCount from a.levelIndex.toNat_lt)]; rfl
  unfold setLevel
  dsimp only
  rw [read_eq h.slot_lt]
  dsimp only [Option.bind_eq_bind, Option.bind_some]
  rw [hpage, Option.bind_some, write_eq h.slot_lt]
  rfl

theorem root_eq (l p : UInt16) : root s l p = some (s.roots (priceRootIndex l p)) :=
  read_eq (rootIndex_lt l p) _

theorem bookSummary_eq : bookSummary s l side = some (s.bookSummary l side) := by
  unfold bookSummary
  rw [read_eq (show _ < kStockLocateSlots from l.toNat_lt)]
  exact read_eq (sideIndex_lt side) _

theorem bookBitmap_eq : bookBitmap s l side = some (s.bookBitmap l side) :=
  read_eq (bookSide_lt l side) _

theorem setBookSummary_eq (v : BookSideSummary) :
    setBookSummary s l side v = some (s.setBookSummary l side v) := by
  have hl : l.toNat < kStockLocateSlots := l.toNat_lt
  unfold setBookSummary
  rw [read_eq hl]
  dsimp only [Option.bind_eq_bind, Option.bind_some]
  rw [write_eq (show sideIndex side < kSideCount from sideIndex_lt side), Option.bind_some, write_eq hl]
  rfl

theorem setBookBitmap_eq (v : PriceBitmapStorage) :
    setBookBitmap s l side v = some (s.setBookBitmap l side v) := by
  unfold setBookBitmap
  rw [write_eq (bookSide_lt l side)]
  rfl

theorem isBookPrepared_eq (l : UInt16) : isBookPrepared s l = some (s.isBookPrepared l) := by
  unfold isBookPrepared PriceLevelStore.isBookPrepared
  rw [read_eq (show _ < kStockLocateSlots from l.toNat_lt)]
  cases isValidStockLocate l <;> rfl

/-! ## Handles -/

/-- No more pages are committed than the arrays have room for. -/
def Fits (s : PriceLevelStore) : Prop := s.committedPages ≤ s.config.pageCapacity

section Handles

variable (hs : Fits s)

include hs

theorem backed_of_owner {o : PageOwner} (h : s.owner handle = some o) : Backed s handle := by
  unfold PriceLevelStore.owner at h
  split_ifs at h with hn
  obtain ⟨h0, hle⟩ := not_or.1 hn
  exact ⟨h0, UInt32.le_trans (UInt32.not_lt.1 hle) hs⟩

theorem owner_eq (handle : UInt32) : owner s handle = some (s.owner handle) := by
  unfold owner PriceLevelStore.owner
  refine ite_some (fun _ => rfl) fun hn => ?_
  obtain ⟨h0, hle⟩ := not_or.1 hn
  rw [pageOwner_eq ⟨h0, UInt32.le_trans (UInt32.not_lt.1 hle) hs⟩]
  rfl

theorem rootHandleMatches_eq (l p : UInt16) (handle : UInt32) :
    rootHandleMatches s l p handle = some (s.rootHandleMatches l p handle) := by
  unfold rootHandleMatches PriceLevelStore.rootHandleMatches
  rw [owner_eq hs]
  cases s.owner handle <;> rfl

theorem backed_of_rootHandleMatches (h : s.rootHandleMatches l p handle = true) :
    Backed s handle := by
  unfold PriceLevelStore.rootHandleMatches at h
  cases ho : s.owner handle with
  | none =>
    rw [ho] at h
    cases h
  | some o => exact backed_of_owner hs ho

theorem pageHandle_eq (l p : UInt16) : pageHandle s l p = some (s.pageHandle l p) := by
  unfold pageHandle PriceLevelStore.pageHandle
  refine ite_some (fun _ => rfl) fun _ => ?_
  rw [root_eq]
  dsimp only [Option.bind_eq_bind, Option.bind_some]
  rw [rootHandleMatches_eq hs]
  rfl

theorem backed_of_pageHandle (h : s.pageHandle l p ≠ kInvalidPricePageHandle) :
    Backed s (s.pageHandle l p) := by
  unfold PriceLevelStore.pageHandle at h ⊢
  dsimp only at h ⊢
  split_ifs at h ⊢ with hv hm
  · exact absurd rfl h
  · exact backed_of_rootHandleMatches hs hm
  · exact absurd rfl h

theorem backed_of_validateAddress (h : s.validateAddress a side = .applied) :
    Backed s a.pageHandle ∧ side ≠ .invalid := by
  unfold PriceLevelStore.validateAddress at h
  split_ifs at h with hside hn
  obtain ⟨h0, hle⟩ := not_or.1 hn
  refine ⟨⟨fun hz => h0 ?_, UInt32.le_trans (UInt32.not_lt.1 hle) hs⟩, ?_⟩
  · unfold PriceAddress.valid
    rw [hz]
    rfl
  · rintro rfl
    exact hside rfl

theorem ownsAddress_eq (l p : UInt16) (a : PriceAddress) :
    ownsAddress s l p a = some (s.ownsAddress l p a) := by
  unfold ownsAddress PriceLevelStore.ownsAddress
  rw [rootHandleMatches_eq hs]
  cases isValidStockLocate l <;> rfl

theorem resolveLevel_eq (a : PriceAddress) (side : OrderSide) :
    resolveLevel s a side = some (s.resolveLevel a side) := by
  unfold resolveLevel PriceLevelStore.resolveLevel
  refine ite_some (fun _ => rfl) fun h => ?_
  rw [levelUnchecked_eq (backed_of_validateAddress hs (not_not.1 h)).1]
  rfl

end Handles

/-! ## Pages -/

section Pages

variable (hs : Fits s)

include hs

theorem reservePrice_eq (l : UInt16) (rawPrice : UInt32) :
    reservePrice s l rawPrice = some (s.reservePrice l rawPrice) := by
  unfold reservePrice PriceLevelStore.reservePrice
  rw [isBookPrepared_eq]
  refine ite_some (fun _ => rfl) fun _ => ite_some (fun _ => rfl) fun _ => ?_
  dsimp only
  rw [root_eq]
  refine ite_some (fun _ => ?_) fun _ => ite_some (fun _ => rfl) fun _ => rfl
  rw [rootHandleMatches_eq hs]
  exact ite_some (fun _ => rfl) fun _ => rfl

omit hs in
theorem commitReservation_eq (r : PricePageReservation) :
    commitReservation s r = some (s.commitReservation r) := by
  unfold commitReservation PriceLevelStore.commitReservation
  rw [isBookPrepared_eq]
  refine ite_some (fun _ => rfl) fun _ => ite_some (fun _ => rfl) fun hvalid =>
    ite_some (fun _ => rfl) fun _ => ite_some (fun _ => rfl) fun _ => ?_
  rw [root_eq]
  refine ite_some (fun _ => rfl) fun _ => ite_some (fun _ => rfl) fun hfit => ?_
  have hb : Backed s r.address.pageHandle := by
    refine ⟨fun h0 => hvalid ?_, UInt32.not_lt.1 fun h => hfit (.inr (.inr (.inr h)))⟩
    unfold PriceAddress.valid
    rw [h0]
    rfl
  dsimp only
  rw [pageOwner_eq hb]
  refine ite_some (fun _ => rfl) fun _ => ?_
  rw [write_eq hb.handle_lt, write_eq (rootIndex_lt _ _)]
  rfl

end Pages

/-! ## Validation -/

theorem nextWorseIndex_eq (side : OrderSide) (bitmap : PriceBitmapStorage) (index : UInt16) :
    nextWorseIndex side bitmap index = some (PriceLevelStore.nextWorseIndex side bitmap index) :=
  ite_some (fun _ => ite_some (fun _ => CheckedBitmap.findHighestAtOrBelow_eq _ _) fun _ => rfl)
    fun _ => ite_some (fun _ => CheckedBitmap.findLowestAtOrAbove_eq _ _) fun _ => rfl

theorem nextWorseIndex_lt {bitmap : PriceBitmapStorage} {index : UInt16}
    (h : PriceLevelStore.nextWorseIndex side bitmap index ≠ PriceBitmap.kInvalid) :
    PriceLevelStore.nextWorseIndex side bitmap index < kPricePartCount := by
  refine Or.resolve_left ?_ h
  exact CheckedBitmap.ite_found
    (fun _ => CheckedBitmap.ite_found
      (fun _ => CheckedBitmap.findHighestAtOrBelow_found _ _) fun _ => .inl rfl)
    fun _ => CheckedBitmap.ite_found
      (fun _ => CheckedBitmap.findLowestAtOrAbove_found _ _) fun _ => .inl rfl

theorem validateActivation_eq (hs : Fits s) (a : PriceAddress) (side : OrderSide) :
    validateActivation s a side = some (s.validateActivation a side) := by
  unfold validateActivation PriceLevelStore.validateActivation
  rw [owner_eq hs]
  cases ho : s.owner a.pageHandle with
  | none => rfl
  | some o =>
    refine ite_some (fun _ => rfl) fun _ => ?_
    rw [pageSummary_eq (backed_of_owner hs ho), bookSummary_eq]
    rfl

theorem validateAdd_eq (hs : Fits s) (a : PriceAddress) (side : OrderSide) (qty : UInt32) :
    validateAdd s a side qty = some (s.validateAdd a side qty) := by
  unfold validateAdd PriceLevelStore.validateAdd
  refine ite_some (fun _ => rfl) fun haddress => ite_some (fun _ => rfl) fun _ => ?_
  rw [levelUnchecked_eq (backed_of_validateAddress hs (not_not.1 haddress)).1]
  exact ite_some (fun _ => rfl) fun _ => ite_some (fun _ => rfl) fun _ =>
    ite_some (fun _ => rfl) fun _ => ite_some (fun _ => validateActivation_eq hs a side) fun _ => rfl

theorem pageBitmapRefuses_eq {bitmap : PriceBitmapStorage} {level best : ℕ}
    (hlevel : level < kPricePartCount) (hbest : best < kPricePartCount) :
    pageBitmapRefuses bitmap level best = some (decide (PriceBitmap.empty bitmap = true
      ∨ (!PriceBitmap.test bitmap level) = true ∨ (!PriceBitmap.test bitmap best) = true)) := by
  unfold pageBitmapRefuses
  rw [CheckedBitmap.test_eq hlevel, CheckedBitmap.test_eq hbest]
  cases PriceBitmap.empty bitmap <;> cases PriceBitmap.test bitmap level <;>
    cases PriceBitmap.test bitmap best <;> rfl

theorem planPage_eq (h : Backed s a.pageHandle)
    (hbest : (s.pageSummary a.pageHandle side).bestLevelIndex.toNat < kPricePartCount) :
    planPage s a side = some (s.planPage a side) := by
  unfold planPage PriceLevelStore.planPage
  rw [pageSummary_eq h]
  refine ite_some (fun _ => rfl) fun _ => ?_
  rw [pageBitmap_eq h]
  dsimp only [Option.bind_eq_bind, Option.bind_some]
  rw [pageBitmapRefuses_eq a.levelIndex.toNat_lt hbest]
  dsimp only [Option.bind_eq_bind, Option.bind_some]
  simp only [decide_eq_true_eq]
  refine ite_some (fun _ => rfl) fun _ => ite_some (fun _ => ?_) fun _ => rfl
  rw [nextWorseIndex_eq]
  refine ite_some (fun _ => rfl) fun _ => ?_
  rw [levelAt_eq h]
  rfl

theorem planBook_eq (hs : Fits s) (h : Backed s a.pageHandle) (o : PageOwner)
    (plan : DeactivationPlan) :
    planBook s a side o plan = some (s.planBook a side o plan) := by
  unfold planBook PriceLevelStore.planBook
  rw [pageSummary_eq h, bookSummary_eq, bookBitmap_eq]
  refine ite_some (fun _ => ?_) fun _ => rfl
  refine ite_some (fun _ => rfl) fun _ => ite_some (fun _ => rfl) fun _ => ?_
  rw [nextWorseIndex_eq]
  refine ite_some (fun _ => rfl) fun _ => ite_some (fun _ => rfl) fun _ => ?_
  rw [pageHandle_eq hs]
  refine ite_some (fun _ => rfl) fun hnext => ?_
  have hb := backed_of_pageHandle hs hnext
  rw [pageSummary_eq hb]
  refine ite_some (fun _ => rfl) fun _ => ?_
  rw [levelAt_eq hb]
  rfl

theorem validateDeactivation_eq (hs : Fits s) (a : PriceAddress) (side : OrderSide) :
    validateDeactivation s a side = some (s.validateDeactivation a side) := by
  unfold validateDeactivation PriceLevelStore.validateDeactivation
  rw [owner_eq hs]
  cases ho : s.owner a.pageHandle with
  | none => rfl
  | some o =>
    have hb := backed_of_owner hs ho
    dsimp only [Option.bind_eq_bind, Option.bind_some]
    refine ite_some (fun _ => rfl) fun _ => ?_
    rw [pageSummary_eq hb, bookSummary_eq, bookBitmap_eq]
    dsimp only [Option.bind_some]
    rw [CheckedBitmap.test_eq o.pageIndex.toNat_lt]
    refine ite_some (fun _ => rfl) fun hsummary => ?_
    have hbest : (s.pageSummary a.pageHandle side).bestLevelIndex.toNat < kPricePartCount :=
      Nat.not_le.1 fun h => hsummary (.inr (.inr (.inl h)))
    rw [owner_eq hs]
    cases hc : s.owner (s.bookSummary o.stockLocate side).bestPageHandle with
    | none => rfl
    | some cached =>
      have hcached := backed_of_owner hs hc
      dsimp only [Option.bind_eq_bind, Option.bind_some]
      refine ite_some (fun _ => rfl) fun _ => ?_
      rw [pageSummary_eq hcached]
      refine ite_some (fun _ => rfl) fun _ => ?_
      rw [levelAt_eq hcached]
      refine ite_some (fun _ => rfl) fun _ => ?_
      rw [planPage_eq hb hbest]
      cases s.planPage a side with
      | error e => rfl
      | ok plan => exact planBook_eq hs hb o plan

theorem validateErase_eq (hs : Fits s) (a : PriceAddress) (side : OrderSide) (qty : UInt32) :
    validateErase s a side qty = some (s.validateErase a side qty) := by
  unfold validateErase PriceLevelStore.validateErase
  refine ite_some (fun _ => rfl) fun haddress => ite_some (fun _ => rfl) fun _ => ?_
  rw [levelUnchecked_eq (backed_of_validateAddress hs (not_not.1 haddress)).1]
  exact ite_some (fun _ => rfl) fun _ => ite_some (fun _ => rfl) fun _ =>
    ite_some (fun _ => rfl) fun _ => ite_some (fun _ => rfl) fun _ =>
    ite_some (fun _ => validateDeactivation_eq hs a side) fun _ => rfl

/-! ## Mutation -/

/-- The page's best level can be an index of its bitmap. -/
def BestInPage (s : PriceLevelStore) (handle : UInt32) (side : OrderSide) : Prop :=
  (s.pageSummary handle side).bestLevelIndex.toNat < kPricePartCount

/-- The page's next best level, where the plan has one, can be an index of its bitmap. -/
def NextInPage (plan : DeactivationPlan) : Prop :=
  plan.pageBestChanges = true → plan.nextLevelIndex < kPricePartCount

theorem activatedBits_eq {bitmap : PriceBitmapStorage} {summary : PageSideSummary}
    (hbest : summary.activeLevels = 1 → summary.bestLevelIndex.toNat < kPricePartCount)
    (level : UInt16) : activatedBits bitmap summary level
      = some (if summary.activeLevels = 1 then
          PriceBitmap.set (PriceBitmap.set bitmap summary.bestLevelIndex.toNat) level.toNat
        else if 1 < summary.activeLevels then PriceBitmap.set bitmap level.toNat else bitmap) := by
  refine ite_some (fun hone => ?_) fun _ =>
    ite_some (fun _ => CheckedBitmap.set_eq level.toNat_lt) fun _ => rfl
  rw [CheckedBitmap.set_eq (hbest hone)]
  exact CheckedBitmap.set_eq level.toNat_lt

theorem activateLevel_eq (h : Backed s a.pageHandle)
    (hbest : (s.pageSummary a.pageHandle side).activeLevels = 1 →
      BestInPage s a.pageHandle side) :
    activateLevel s a side = some (s.activateLevel a side) := by
  unfold activateLevel
  rw [pageOwner_eq h, pageSummary_eq h, pageBitmap_eq h]
  simp only [Option.bind_eq_bind, Option.bind_some, bookSummary_eq, bookBitmap_eq,
    activatedBits_eq hbest]
  rw [ite_some (fun _ => CheckedBitmap.set_eq (s.pageOwners a.pageHandle.toNat).pageIndex.toNat_lt)
    fun _ => rfl]
  simp only [Option.bind_some, setPageBitmap_eq h,
    setPageSummary_eq (show Backed (s.setPageBitmap a.pageHandle side _) a.pageHandle from h),
    setBookBitmap_eq, setBookSummary_eq]
  rfl

theorem addValidated_eq (h : Backed s a.pageHandle)
    (hbest : (s.levelUnchecked a side).orderCount = 0 →
      (s.pageSummary a.pageHandle side).activeLevels = 1 → BestInPage s a.pageHandle side)
    (qty : UInt32) : addValidated s a side qty = some (s.addValidated a side qty) := by
  unfold addValidated
  rw [levelUnchecked_eq h]
  dsimp only [Option.bind_eq_bind, Option.bind_some]
  rw [ite_some (fun h0 => activateLevel_eq h (hbest h0)) fun _ => rfl]
  dsimp only [Option.bind_some]
  refine setLevel_eq ?_ _
  split <;> exact h

theorem deactivatedBits_eq {bitmap : PriceBitmapStorage} {emptied : Bool} {active best : UInt32}
    (hbest : emptied ≠ true → best.toNat < kPricePartCount) (level : UInt16) :
    deactivatedBits bitmap emptied level active best
      = some (if emptied then bitmap
        else if active = 1 then
          PriceBitmap.reset (PriceBitmap.reset bitmap level.toNat) best.toNat
        else PriceBitmap.reset bitmap level.toNat) := by
  refine ite_some (fun _ => rfl) fun hne => ?_
  rw [CheckedBitmap.reset_eq level.toNat_lt]
  exact ite_some (fun _ => CheckedBitmap.reset_eq (hbest hne)) fun _ => rfl

/-- The best level a deactivation leaves its page. -/
def bestAfter (s : PriceLevelStore) (a : PriceAddress) (side : OrderSide)
    (plan : DeactivationPlan) : UInt32 :=
  if plan.pageBecomesEmpty then 0
  else if plan.pageBestChanges then plan.nextLevelIndex.toUInt32
  else (s.pageSummary a.pageHandle side).bestLevelIndex

theorem bestAfter_lt {plan : DeactivationPlan} (hbest : BestInPage s a.pageHandle side)
    (hnext : NextInPage plan) : (bestAfter s a side plan).toNat < kPricePartCount := by
  unfold bestAfter
  split_ifs with h1 h2
  · decide
  · have hlt := hnext h2
    have hn : plan.nextLevelIndex.toUInt32.toNat = plan.nextLevelIndex :=
      Nat.mod_eq_of_lt (hlt.trans (by decide))
    rwa [hn]
  · exact hbest

theorem deactivateLevel_eq {plan : DeactivationPlan} (h : Backed s a.pageHandle)
    (hbest : BestInPage s a.pageHandle side) (hnext : NextInPage plan) :
    deactivateLevel s a side plan = some (s.deactivateLevel a side plan) := by
  have hafter := bestAfter_lt hbest hnext
  unfold bestAfter at hafter
  unfold deactivateLevel
  rw [pageOwner_eq h, pageSummary_eq h, pageBitmap_eq h]
  simp only [Option.bind_eq_bind, Option.bind_some, bookSummary_eq, bookBitmap_eq]
  rw [deactivatedBits_eq fun _ => hafter, Option.bind_some,
    ite_some (fun _ => CheckedBitmap.reset_eq (s.pageOwners a.pageHandle.toNat).pageIndex.toNat_lt)
    fun _ => rfl]
  simp only [Option.bind_some, setPageBitmap_eq h,
    setPageSummary_eq (show Backed (s.setPageBitmap a.pageHandle side _) a.pageHandle from h),
    setBookBitmap_eq, setBookSummary_eq]
  rfl

/-- What the validation of an erasure has found of the page that loses its level. -/
def PlanInPage (s : PriceLevelStore) (a : PriceAddress) (side : OrderSide)
    (plan : DeactivationPlan) : Prop :=
  (s.levelUnchecked a side).orderCount = 1 → BestInPage s a.pageHandle side ∧ NextInPage plan

theorem eraseValidated_eq {plan : DeactivationPlan} (h : Backed s a.pageHandle)
    (hplan : PlanInPage s a side plan) (qty : UInt32) :
    eraseValidated s a side qty plan = some (s.eraseValidated a side qty plan) := by
  unfold eraseValidated
  rw [levelUnchecked_eq h]
  dsimp only [Option.bind_eq_bind, Option.bind_some]
  rw [setLevel_eq h]
  refine ite_some (fun hone => ?_) fun _ => rfl
  exact deactivateLevel_eq (s := s.setLevel a side _) h (hplan hone).1 (hplan hone).2

theorem ok_of_ite {α : Type*} {c : Prop} [Decidable c] {e : MutationResult}
    {x : Except MutationResult α} {v : α} (h : (if c then .error e else x) = .ok v) :
    ¬ c ∧ x = .ok v := by
  split at h
  · cases h
  · exact ⟨‹_›, h⟩

theorem nextInPage_init : NextInPage DeactivationPlan.init := nofun

theorem planPage_next {plan : DeactivationPlan} (h : s.planPage a side = .ok plan) :
    NextInPage plan := by
  unfold PriceLevelStore.planPage at h
  dsimp only at h
  split_ifs at h with h1 h2 h3 h4 h5 h6
  · cases h
    exact nofun
  · cases h
    exact fun _ => nextWorseIndex_lt h5
  · cases h
    exact nextInPage_init

theorem planBook_next {o : PageOwner} {plan plan' : DeactivationPlan}
    (h : s.planBook a side o plan = .ok plan') (hnext : NextInPage plan) : NextInPage plan' := by
  unfold PriceLevelStore.planBook at h
  dsimp only at h
  split_ifs at h <;> cases h <;> exact hnext

theorem validateDeactivation_next {plan : DeactivationPlan}
    (h : s.validateDeactivation a side = .ok plan) :
    BestInPage s a.pageHandle side ∧ NextInPage plan := by
  unfold PriceLevelStore.validateDeactivation at h
  cases ho : s.owner a.pageHandle with
  | none =>
    rw [ho] at h
    cases h
  | some o =>
    rw [ho] at h
    obtain ⟨h1, h⟩ := ok_of_ite h
    obtain ⟨h2, h⟩ := ok_of_ite h
    cases hc : s.owner (s.bookSummary o.stockLocate side).bestPageHandle with
    | none =>
      rw [hc] at h
      cases h
    | some cached =>
      rw [hc] at h
      have h := (ok_of_ite (ok_of_ite (ok_of_ite h).2).2).2
      cases hp : s.planPage a side with
      | error e =>
        rw [hp] at h
        cases h
      | ok plan₀ =>
        rw [hp] at h
        exact ⟨Nat.not_le.1 fun hle => h2 (.inr (.inr (.inl hle))),
          planBook_next h (planPage_next hp)⟩

theorem validateErase_next {qty : UInt32} {plan : DeactivationPlan}
    (h : s.validateErase a side qty = .ok plan) :
    s.validateAddress a side = .applied ∧ PlanInPage s a side plan := by
  unfold PriceLevelStore.validateErase at h
  dsimp only at h
  split_ifs at h with h1 h2 h3 h4 h5 h6 h7
  · exact ⟨not_not.1 h1, fun _ => validateDeactivation_next h⟩
  · exact ⟨not_not.1 h1, fun hone => absurd hone h7⟩

theorem validateAdd_best {qty : UInt32} (h : s.validateAdd a side qty = .applied) :
    s.validateAddress a side = .applied ∧ ((s.levelUnchecked a side).orderCount = 0 →
      (s.pageSummary a.pageHandle side).activeLevels ≠ 0 → BestInPage s a.pageHandle side) := by
  unfold PriceLevelStore.validateAdd at h
  dsimp only at h
  split_ifs at h with h1 h2 h3 h4 h5 h6
  · exact absurd h h1
  · refine ⟨not_not.1 h1, fun _ hactive => ?_⟩
    unfold PriceLevelStore.validateActivation at h
    cases ho : s.owner a.pageHandle with
    | none =>
      rw [ho] at h
      cases h
    | some o =>
      rw [ho] at h
      dsimp only at h
      split_ifs at h with h7 h8
      exact Nat.not_le.1 fun hle => h8 (.inr (.inl ⟨hactive, hle⟩))
  · exact ⟨not_not.1 h1, fun h0 => absurd h0 h6⟩

theorem reduceLevel_eq (h : Backed s a.pageHandle) (currentOrderQty reductionQty : UInt32) :
    reduceLevel s a side currentOrderQty reductionQty
      = some (s.reduceLevel a side currentOrderQty reductionQty) := by
  unfold reduceLevel PriceLevelStore.reduceLevel
  refine ite_some (fun _ => rfl) fun _ => ite_some (fun _ => rfl) fun _ => ?_
  rw [levelUnchecked_eq h]
  refine ite_some (fun _ => rfl) fun _ => ite_some (fun _ => rfl) fun _ =>
    ite_some (fun _ => rfl) fun _ => ite_some (fun _ => rfl) fun _ =>
    ite_some (fun _ => rfl) fun _ => ?_
  rw [setLevel_eq h]
  rfl

section Operations

variable (hs : Fits s)

include hs

theorem add_eq (a : PriceAddress) (side : OrderSide) (qty : UInt32) :
    add s a side qty = some (s.add a side qty) := by
  unfold add PriceLevelStore.add
  rw [validateAdd_eq hs]
  refine ite_some (fun _ => rfl) fun hvalid => ?_
  obtain ⟨haddress, hbest⟩ := validateAdd_best (not_not.1 hvalid)
  have hb := (backed_of_validateAddress hs haddress).1
  rw [addValidated_eq hb fun h0 hone => hbest h0 fun hz => by rw [hz] at hone; cases hone]
  rfl

theorem reduce_eq (a : PriceAddress) (side : OrderSide) (currentOrderQty reductionQty : UInt32) :
    reduce s a side currentOrderQty reductionQty
      = some (s.reduce a side currentOrderQty reductionQty) :=
  ite_some (fun _ => rfl) fun h =>
    reduceLevel_eq (backed_of_validateAddress hs (not_not.1 h)).1 _ _

theorem reduceChecked_eq (l p : UInt16) (a : PriceAddress) (side : OrderSide)
    (currentOrderQty reductionQty : UInt32) :
    reduceChecked s l p a side currentOrderQty reductionQty
      = some (s.reduceChecked l p a side currentOrderQty reductionQty) := by
  unfold reduceChecked PriceLevelStore.reduceChecked
  refine ite_some (fun _ => rfl) fun _ => ite_some (fun _ => rfl) fun h => ?_
  have hb := (backed_of_validateAddress hs (not_not.1 h)).1
  rw [pageOwner_eq hb]
  exact ite_some (fun _ => rfl) fun _ => reduceLevel_eq hb _ _

theorem erase_eq (a : PriceAddress) (side : OrderSide) (qty : UInt32) :
    erase s a side qty = some (s.erase a side qty) := by
  unfold erase PriceLevelStore.erase
  rw [validateErase_eq hs]
  cases hv : s.validateErase a side qty with
  | error e => rfl
  | ok plan =>
    obtain ⟨haddress, hplan⟩ := validateErase_next hv
    dsimp only [Option.bind_eq_bind, Option.bind_some]
    rw [eraseValidated_eq (backed_of_validateAddress hs haddress).1 hplan]
    rfl

omit hs in
/-- Where another level is the first of its page after an erasure, the page's best level still can
be an index: the erasure has left a page of its own with a best level it has validated. -/
theorem bestInPage_eraseValidated {b : PriceAddress} {qty : UInt32} {plan : DeactivationPlan}
    (hv : side ≠ .invalid) (hplan : PlanInPage s a side plan)
    (hbest : (s.levelUnchecked b side).orderCount = 0 →
      (s.pageSummary b.pageHandle side).activeLevels ≠ 0 → BestInPage s b.pageHandle side)
    (hab : ¬ (a.pageHandle = b.pageHandle ∧ a.levelIndex = b.levelIndex))
    (h0 : ((s.eraseValidated a side qty plan).levelUnchecked b side).orderCount = 0)
    (hactive : ((s.eraseValidated a side qty plan).pageSummary b.pageHandle side).activeLevels
      ≠ 0) :
    BestInPage (s.eraseValidated a side qty plan) b.pageHandle side := by
  have hf := PriceLevelStore.eraseValidated_onlyAt (s := s) (a := a) qty plan hv
  have hlevel : (s.eraseValidated a side qty plan).levelUnchecked b side
      = s.levelUnchecked b side :=
    hf.levelAt b.pageHandle side b.levelIndex.toNat hv fun hx =>
      hab ⟨hx.1.symm, (UInt16.toNat_inj.1 hx.2.2).symm⟩
  rw [hlevel] at h0
  unfold BestInPage
  by_cases hpage : b.pageHandle = a.pageHandle
  · by_cases hlast : (s.levelUnchecked a side).orderCount = 1
    · have herase : ((s.eraseValidated a side qty plan).pageSummary b.pageHandle side).bestLevelIndex
          = bestAfter s a side plan := by
        unfold PriceLevelStore.eraseValidated
        dsimp only
        rw [if_pos hlast, hpage]
        exact congrArg PageSideSummary.bestLevelIndex
          (PriceLevelStore.setPageSummary_self (s := PriceLevelStore.setPageBitmap _ _ _ _) hv)
      rw [herase]
      exact bestAfter_lt (hplan hlast).1 (hplan hlast).2
    · have herase : (s.eraseValidated a side qty plan).pageSummary b.pageHandle side
          = s.pageSummary b.pageHandle side := by
        unfold PriceLevelStore.eraseValidated
        dsimp only
        rw [if_neg hlast]
        rfl
      rw [herase] at hactive ⊢
      exact hbest h0 hactive
  · have hsummary := hf.pageSummary b.pageHandle side hv fun hx => hpage hx.1
    rw [hsummary] at hactive ⊢
    exact hbest h0 hactive

theorem move_eq (a : PriceAddress) (oldQty : UInt32) (b : PriceAddress) (newQty : UInt32)
    (side : OrderSide) : move s a oldQty b newQty side = some (s.move a oldQty b newQty side) := by
  unfold move PriceLevelStore.move
  refine ite_some (fun _ => rfl) fun _ => ?_
  rw [owner_eq hs, owner_eq hs]
  cases ha : s.owner a.pageHandle with
  | none => rfl
  | some oldOwner =>
    cases hb : s.owner b.pageHandle with
    | none => rfl
    | some newOwner =>
      dsimp only [Option.bind_eq_bind, Option.bind_some]
      refine ite_some (fun _ => rfl) fun _ => ite_some (fun _ => rfl) fun _ => ?_
      rw [validateErase_eq hs]
      cases he : s.validateErase a side oldQty with
      | error e => rfl
      | ok plan =>
        obtain ⟨haddress, hplan⟩ := validateErase_next he
        obtain ⟨hba, hv⟩ := backed_of_validateAddress hs haddress
        dsimp only [Option.bind_eq_bind, Option.bind_some]
        refine ite_some (fun _ => ?_) fun hab => ?_
        · rw [levelUnchecked_eq hba]
          refine ite_some (fun _ => rfl) fun _ => ?_
          rw [setLevel_eq hba]
          rfl
        · rw [validateAdd_eq hs]
          refine ite_some (fun _ => rfl) fun hadd => ?_
          obtain ⟨-, hbest⟩ := validateAdd_best (not_not.1 hadd)
          have hf := PriceLevelStore.eraseValidated_onlyAt (s := s) (a := a) oldQty plan hv
          have hbb : Backed (s.eraseValidated a side oldQty plan) b.pageHandle := by
            unfold Backed
            rw [hf.config]
            exact backed_of_owner hs hb
          rw [eraseValidated_eq hba hplan]
          dsimp only [Option.bind_some]
          rw [addValidated_eq hbb fun h0 hone =>
            bestInPage_eraseValidated hv hplan hbest hab h0 fun hz => by rw [hz] at hone; cases hone]
          rfl

/-! ## Reading a side -/

omit hs in
theorem best_eq (l : UInt16) (side : OrderSide) : best s l side = some (s.best l side) := by
  unfold best PriceLevelStore.best
  rw [isBookPrepared_eq]
  refine ite_some (fun _ => rfl) fun _ => ?_
  rw [bookSummary_eq]
  rfl

omit hs in
theorem nextLevelOnPage_eq (h : Backed s handle) (active : UInt32) (level : UInt16) :
    nextLevelOnPage s handle side active level = some (if 1 < active then
      PriceLevelStore.nextWorseIndex side (s.pageBitmap handle side) level
      else PriceBitmap.kInvalid) := by
  refine ite_some (fun _ => ?_) fun _ => rfl
  rw [pageBitmap_eq h]
  exact nextWorseIndex_eq _ _ _

theorem nextWorse_eq (l : UInt16) (side : OrderSide) (current : PriceLevelCursor) :
    nextWorse s l side current = some (s.nextWorse l side current) := by
  unfold nextWorse PriceLevelStore.nextWorse
  rw [isBookPrepared_eq]
  refine ite_some (fun _ => rfl) fun _ => ?_
  rw [rootHandleMatches_eq hs]
  refine ite_some (fun _ => rfl) fun hroot => ?_
  have hb := backed_of_rootHandleMatches hs (by simpa using hroot)
  rw [pageSummary_eq hb]
  dsimp only [Option.bind_eq_bind, Option.bind_some]
  rw [nextLevelOnPage_eq hb]
  refine ite_some (fun _ => rfl) fun _ => ?_
  rw [bookBitmap_eq]
  dsimp only [Option.bind_eq_bind, Option.bind_some]
  rw [nextWorseIndex_eq]
  refine ite_some (fun _ => rfl) fun _ => ?_
  rw [pageHandle_eq hs]
  refine ite_some (fun _ => rfl) fun hnext => ?_
  rw [pageSummary_eq (backed_of_pageHandle hs hnext)]
  rfl

theorem view_eq (cursor : PriceLevelCursor) (side : OrderSide) :
    view s cursor side = some (s.view cursor side) := by
  unfold view PriceLevelStore.view
  refine ite_some (fun _ => rfl) fun _ => ?_
  dsimp only
  rw [ownsAddress_eq hs]
  refine ite_some (fun _ => rfl) fun _ => ?_
  rw [resolveLevel_eq hs]
  cases s.resolveLevel _ side <;> rfl

/-- Each round of the loop fills a slot, so the slots left bound the rounds. -/
theorem topTenLoop_eq (l : UInt16) (side : OrderSide) {limit remaining fuel count : ℕ}
    (hlimit : count + remaining = limit) (hfuel : remaining < fuel) (cursor : PriceLevelCursor)
    (output : List PriceLevelView) (hsize : limit ≤ output.length) :
    topTenLoop s l side limit fuel cursor count output
      = some (s.topTenLoop l side remaining cursor count output) := by
  induction remaining generalizing fuel cursor count output with
  | zero =>
    obtain ⟨fuel, rfl⟩ := Nat.exists_eq_succ_of_ne_zero (by omega : fuel ≠ 0)
    rw [topTenLoop, if_neg (by omega)]
    rfl
  | succ remaining ih =>
    obtain ⟨fuel, rfl⟩ := Nat.exists_eq_succ_of_ne_zero (by omega : fuel ≠ 0)
    rw [topTenLoop, PriceLevelStore.topTenLoop]
    by_cases hvalid : cursor.valid = true
    · rw [if_pos ⟨hvalid, by omega⟩, if_neg (by simp [hvalid]), view_eq hs, Option.bind_some]
      refine ite_some (fun _ => rfl) fun _ => ?_
      rw [if_pos (by omega)]
      by_cases hlast : remaining = 0
      · rw [if_pos (by omega), if_pos hlast]
      · rw [if_neg (by omega), if_neg hlast, nextWorse_eq hs, Option.bind_some]
        exact ih (by omega) (by omega) _ _ (by rwa [List.length_set])
    · rw [if_neg fun h => hvalid h.1, if_pos (by simpa using hvalid)]

theorem topTen_eq (l : UInt16) (side : OrderSide) (output : List PriceLevelView) {fuel : ℕ}
    (hfuel : kTopLevelCount < fuel) : topTen fuel s l side output = some (s.topTen l side output) := by
  unfold topTen
  rw [best_eq]
  exact topTenLoop_eq hs l side (Nat.zero_add _) ((Nat.min_le_right _ _).trans_lt hfuel) _ _
    (Nat.min_le_left _ _)

end Operations

/-! ## Refusals -/

section Refusals

open PriceLevelStore (KeepsUnlessApplied keeps_refused keeps_applied keeps_ite)

theorem reservePrice_keeps (s : PriceLevelStore) (l : UInt16) (rawPrice : UInt32) :
    ∃ n, (s.reservePrice l rawPrice).2 = { s with pageCapacityFailures := n } := by
  unfold PriceLevelStore.reservePrice
  dsimp only
  split_ifs
  all_goals exact ⟨_, rfl⟩

theorem commitReservation_keeps (s : PriceLevelStore) (r : PricePageReservation) :
    KeepsUnlessApplied s (s.commitReservation r) :=
  keeps_ite (keeps_refused _) <| keeps_ite (keeps_refused _) <| keeps_ite (keeps_refused _) <|
    keeps_ite (keeps_refused _) <| keeps_ite (keeps_refused _) <| keeps_ite (keeps_refused _) <|
    keeps_ite (keeps_refused _) (keeps_applied _)

theorem add_keeps (s : PriceLevelStore) (a : PriceAddress) (side : OrderSide) (qty : UInt32) :
    KeepsUnlessApplied s (s.add a side qty) := keeps_ite (keeps_refused _) (keeps_applied _)

theorem reduceLevel_keeps (s : PriceLevelStore) (a : PriceAddress) (side : OrderSide)
    (currentOrderQty reductionQty : UInt32) :
    KeepsUnlessApplied s (s.reduceLevel a side currentOrderQty reductionQty) :=
  keeps_ite (keeps_refused _) <| keeps_ite (keeps_refused _) <| keeps_ite (keeps_refused _) <|
    keeps_ite (keeps_refused _) <| keeps_ite (keeps_refused _) <| keeps_ite (keeps_refused _) <|
    keeps_ite (keeps_refused _) (keeps_applied _)

theorem reduce_keeps (s : PriceLevelStore) (a : PriceAddress) (side : OrderSide)
    (currentOrderQty reductionQty : UInt32) :
    KeepsUnlessApplied s (s.reduce a side currentOrderQty reductionQty) :=
  keeps_ite (keeps_refused _) (reduceLevel_keeps s a side _ _)

theorem reduceChecked_keeps (s : PriceLevelStore) (l p : UInt16) (a : PriceAddress)
    (side : OrderSide) (currentOrderQty reductionQty : UInt32) :
    KeepsUnlessApplied s (s.reduceChecked l p a side currentOrderQty reductionQty) :=
  keeps_ite (keeps_refused _) <| keeps_ite (keeps_refused _) <| keeps_ite (keeps_refused _)
    (reduceLevel_keeps s a side _ _)

theorem erase_keeps (s : PriceLevelStore) (a : PriceAddress) (side : OrderSide) (qty : UInt32) :
    KeepsUnlessApplied s (s.erase a side qty) := by
  unfold PriceLevelStore.erase
  cases s.validateErase a side qty with
  | error e => exact keeps_refused e
  | ok plan => exact keeps_applied _

end Refusals

/-- Whatever the roots, owners, summaries, bitmaps and levels hold: no operation of a store that has
not committed more pages than its capacity leaves an array or shifts by too much, `topTen` ends
within its ten slots, and a mutation that is not applied changes nothing. Reserving a price changes
nothing but the count of capacity failures. -/
theorem accesses_in_range (s : PriceLevelStore) (hs : s.committedPages ≤ s.config.pageCapacity) :
    (∀ l rawPrice, reservePrice s l rawPrice = some (s.reservePrice l rawPrice)
      ∧ ∃ n, (s.reservePrice l rawPrice).2 = { s with pageCapacityFailures := n })
    ∧ (∀ r, commitReservation s r = some (s.commitReservation r)
      ∧ ((s.commitReservation r).1 ≠ .applied → (s.commitReservation r).2 = s))
    ∧ (∀ a side qty, add s a side qty = some (s.add a side qty)
      ∧ ((s.add a side qty).1 ≠ .applied → (s.add a side qty).2 = s))
    ∧ (∀ a side current reduction,
      reduce s a side current reduction = some (s.reduce a side current reduction)
      ∧ ((s.reduce a side current reduction).1 ≠ .applied →
        (s.reduce a side current reduction).2 = s))
    ∧ (∀ l p a side current reduction, reduceChecked s l p a side current reduction
        = some (s.reduceChecked l p a side current reduction)
      ∧ ((s.reduceChecked l p a side current reduction).1 ≠ .applied →
        (s.reduceChecked l p a side current reduction).2 = s))
    ∧ (∀ a side qty, erase s a side qty = some (s.erase a side qty)
      ∧ ((s.erase a side qty).1 ≠ .applied → (s.erase a side qty).2 = s))
    ∧ (∀ a oldQty b newQty side,
      move s a oldQty b newQty side = some (s.move a oldQty b newQty side)
      ∧ ((s.move a oldQty b newQty side).1 ≠ .applied → (s.move a oldQty b newQty side).2 = s))
    ∧ (∀ l side, best s l side = some (s.best l side))
    ∧ (∀ l side cursor, nextWorse s l side cursor = some (s.nextWorse l side cursor))
    ∧ (∀ cursor side, view s cursor side = some (s.view cursor side))
    ∧ ∀ l side output fuel, kTopLevelCount < fuel →
      topTen fuel s l side output = some (s.topTen l side output) :=
  ⟨fun l x => ⟨reservePrice_eq hs l x, reservePrice_keeps s l x⟩,
    fun r => ⟨commitReservation_eq r, commitReservation_keeps s r⟩,
    fun a side qty => ⟨add_eq hs a side qty, add_keeps s a side qty⟩,
    fun a side c r => ⟨reduce_eq hs a side c r, reduce_keeps s a side c r⟩,
    fun l p a side c r => ⟨reduceChecked_eq hs l p a side c r, reduceChecked_keeps s l p a side c r⟩,
    fun a side qty => ⟨erase_eq hs a side qty, erase_keeps s a side qty⟩,
    fun a oldQty b newQty side =>
      ⟨move_eq hs a oldQty b newQty side, PriceLevelStore.move_keeps oldQty newQty⟩,
    best_eq, nextWorse_eq hs, view_eq hs,
    fun l side output _ hfuel => topTen_eq hs l side output hfuel⟩

/-- A page and a book whose summaries say nothing that can be true. -/
theorem accesses_in_range_corrupt :
    let s : PriceLevelStore := { PriceLevelStore.fresh ⟨1⟩ with
      roots := fun _ => 7
      pageOwners := fun _ => ⟨1, 3, 1⟩
      pages := fun _ => ⟨fun _ => ⟨5, 1⟩, fun _ => ⟨0, 0⟩⟩
      pageSummaries := fun _ _ => ⟨0xFFFFFFFF, 1⟩
      bookSummaries := fun _ _ => ⟨0xFFFFFFFF, 0xFFFFFFFF, 9⟩
      committedPages := 1 }
    erase s ⟨1, 4⟩ .buy 5 = some (s.erase ⟨1, 4⟩ .buy 5)
      ∧ ((s.erase ⟨1, 4⟩ .buy 5).1 ≠ .applied → (s.erase ⟨1, 4⟩ .buy 5).2 = s)
      ∧ topTen 11 s 1 .buy [] = some (s.topTen 1 .buy []) := by
  intro s
  obtain ⟨-, -, -, -, -, herase, -, -, -, -, htop⟩ := accesses_in_range s (by decide)
  exact ⟨(herase ⟨1, 4⟩ .buy 5).1, (herase ⟨1, 4⟩ .buy 5).2, htop 1 .buy [] 11 (by decide)⟩

end CheckedStore

end AstraFeed
