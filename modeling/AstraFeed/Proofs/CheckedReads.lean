import AstraFeed.CheckedReads
import AstraFeed.DecoderInvariant

/-!
# The handlers stay inside their message

A message with the length of its type has every byte its handler reads, so the handler with its
reads checked is the handler (`dispatchMessage_eq`).
-/

namespace AstraFeed

namespace Checked

variable {msg : List UInt8} {off : ℕ}

/-! ## Fields -/

theorem byteAt_eq (h : off < msg.length) : byteAt msg off = some (Wire.byteAt msg off) := by
  unfold byteAt Wire.byteAt
  rw [List.getD_eq_getElem?_getD, List.getElem?_eq_getElem h, Option.getD_some]

theorem readU16BE_eq (h : off + 2 ≤ msg.length) :
    readU16BE msg off = some (Wire.readU16BE msg off) := by
  unfold readU16BE
  rw [byteAt_eq (by omega), byteAt_eq (by omega)]
  rfl

theorem readU32BE_eq (h : off + 4 ≤ msg.length) :
    readU32BE msg off = some (Wire.readU32BE msg off) := by
  unfold readU32BE
  rw [byteAt_eq (by omega), byteAt_eq (by omega), byteAt_eq (by omega), byteAt_eq (by omega)]
  rfl

theorem readBELoop_eq {indices : List ℕ} (h : ∀ i ∈ indices, off + i < msg.length) (v : UInt64) :
    readBELoop msg off indices v = some (indices.foldl
      (fun (v : UInt64) i => v <<< 8 ||| (Wire.byteAt msg (off + i)).toUInt64) v) := by
  induction indices generalizing v with
  | nil => rfl
  | cons i indices ih =>
    rw [readBELoop, byteAt_eq (h i List.mem_cons_self)]
    exact ih (fun j hj => h j (List.mem_cons_of_mem _ hj)) _

theorem range_lt {count i : ℕ} (h : off + count ≤ msg.length) (hi : i ∈ List.range count) :
    off + i < msg.length := by
  have := List.mem_range.1 hi
  omega

theorem readBE_eq {count : ℕ} (h : off + count ≤ msg.length) :
    readBELoop msg off (List.range count) 0 = some (Wire.readBE msg off count) :=
  readBELoop_eq (fun _ hi => range_lt h hi) 0

theorem readU48BE_eq (h : off + 6 ≤ msg.length) :
    readU48BE msg off = some (Wire.readU48BE msg off) := readBE_eq h

theorem readU64BE_eq (h : off + 8 ≤ msg.length) :
    readU64BE msg off = some (Wire.readU64BE msg off) := readBE_eq h

theorem timestamp_eq (h : 11 ≤ msg.length) : readU48BE msg Wire.kTimestampOffset
    = some (Wire.readU48BE msg Wire.kTimestampOffset) := readU48BE_eq h

theorem mapM_byteAt {indices : List ℕ} (h : ∀ i ∈ indices, off + i < msg.length) :
    indices.mapM (fun i => byteAt msg (off + i))
      = some (indices.map fun i => Wire.byteAt msg (off + i)) := by
  induction indices with
  | nil => rfl
  | cons i indices ih =>
    rw [List.mapM_cons, byteAt_eq (h i List.mem_cons_self),
      ih fun j hj => h j (List.mem_cons_of_mem _ hj)]
    rfl

/-- The bytes of a field, one after the other. -/
theorem map_byteAt_range {len : ℕ} (h : off + len ≤ msg.length) :
    (List.range len).map (fun i => Wire.byteAt msg (off + i)) = (msg.drop off).take len := by
  refine List.ext_getElem ?_ fun i hi hi' => ?_
  · rw [List.length_map, List.length_range, List.length_take, List.length_drop]
    omega
  · rw [List.length_map, List.length_range] at hi
    rw [List.getElem_map, List.getElem_range, List.getElem_take, List.getElem_drop, Wire.byteAt,
      List.getD_eq_getElem?_getD, List.getElem?_eq_getElem (by omega), Option.getD_some]

theorem fixedText_eq {len : ℕ} (h : off + len ≤ msg.length) :
    fixedText msg off len = some (Wire.fixedText msg off len) := by
  unfold fixedText
  rw [mapM_byteAt fun _ hi => range_lt h hi, map_byteAt_range h]
  rfl

theorem stockLoop_eq {entry : StockDirectoryEntry} {indices : List ℕ}
    (h : ∀ i ∈ indices, off + i < msg.length) :
    stockLoop entry msg off indices = some (indices.all fun index =>
      Wire.byteAt msg (off + index)
        == if index < (StockDirectory.tickerView entry).length then entry.ticker.chars.getD index 0
          else byte ' ') := by
  induction indices with
  | nil => rfl
  | cons i indices ih =>
    rw [stockLoop, byteAt_eq (h i List.mem_cons_self), List.all_cons]
    dsimp only [Option.bind_eq_bind, Option.bind_some]
    generalize (if i < (StockDirectory.tickerView entry).length then entry.ticker.chars.getD i 0
      else byte ' ') = expected
    by_cases hc : Wire.byteAt msg (off + i) = expected
    · rw [if_neg (not_not.2 hc), hc, beq_self_eq_true, Bool.true_and]
      exact ih fun j hj => h j (List.mem_cons_of_mem _ hj)
    · rw [if_pos hc, beq_false_of_ne hc]
      rfl

theorem wireStockMatches_eq (entry : StockDirectoryEntry) (h : off + 8 ≤ msg.length) :
    wireStockMatches entry msg off = some (Wire.wireStockMatches entry msg off) :=
  stockLoop_eq fun _ hi => range_lt h hi

/-! ## Handlers -/

section Handlers

variable {p : ItchParser} (locate : UInt16)

open Wire (kTimestampOffset kAddStockOffset kSystemEventCodeOffset kStockLen)

theorem handleAdd_eq (h : 36 ≤ msg.length) :
    handleAdd p msg locate = some (p.handleAdd msg locate) := by
  unfold handleAdd ItchParser.handleAdd
  cases p.symbols.get locate with
  | none => rfl
  | some entry =>
    dsimp only
    have hstock := wireStockMatches_eq entry (show kAddStockOffset + 8 ≤ msg.length from
      (show 24 + 8 ≤ _ by omega))
    rw [hstock, readU64BE_eq (by omega),
      readU32BE_eq (by omega), readU32BE_eq (by omega),
      timestamp_eq (by omega), byteAt_eq (by omega)]
    exact (apply_ite some _ _ _).symm

theorem applyExecution_eq (h : 31 ≤ msg.length) :
    applyExecution p msg locate = some (p.applyExecution msg locate) := by
  unfold applyExecution
  rw [readU64BE_eq (by omega), readU32BE_eq (by omega), timestamp_eq (by omega)]
  rfl

theorem handleOrderExecutedWithPrice_eq (h : 36 ≤ msg.length) :
    handleOrderExecutedWithPrice p msg locate
      = some (p.handleOrderExecutedWithPrice msg locate) := by
  unfold handleOrderExecutedWithPrice ItchParser.handleOrderExecutedWithPrice
  rw [readU32BE_eq (by omega), applyExecution_eq locate (by omega)]
  exact (apply_ite some _ _ _).symm

theorem handleCancel_eq (h : 23 ≤ msg.length) :
    handleCancel p msg locate = some (p.handleCancel msg locate) := by
  unfold handleCancel
  rw [readU64BE_eq (by omega), readU32BE_eq (by omega), timestamp_eq (by omega)]
  rfl

theorem handleDelete_eq (h : 19 ≤ msg.length) :
    handleDelete p msg locate = some (p.handleDelete msg locate) := by
  unfold handleDelete
  rw [readU64BE_eq (by omega), timestamp_eq (by omega)]
  rfl

theorem handleReplace_eq (h : 35 ≤ msg.length) :
    handleReplace p msg locate = some (p.handleReplace msg locate) := by
  unfold handleReplace ItchParser.handleReplace
  rw [readU64BE_eq (by omega), readU64BE_eq (by omega), readU32BE_eq (by omega),
    readU32BE_eq (by omega), timestamp_eq (by omega)]
  exact (apply_ite some _ _ _).symm

theorem directoryEntry_eq (h : 39 ≤ msg.length) :
    directoryEntry msg locate (Wire.fixedText msg 11 kStockLen)
      = some (ItchParser.directoryEntry msg locate) := by
  unfold directoryEntry
  rw [byteAt_eq (by omega), byteAt_eq (by omega), readU32BE_eq (by omega), byteAt_eq (by omega),
    byteAt_eq (by omega), byteAt_eq (by omega)]
  rfl

theorem handleStockDirectory_eq (h : 39 ≤ msg.length) :
    handleStockDirectory p msg = some (p.handleStockDirectory msg) := by
  unfold handleStockDirectory ItchParser.handleStockDirectory
  rw [readU16BE_eq (by omega), fixedText_eq (show 11 + kStockLen ≤ _ from (show 11 + 8 ≤ _ by omega))]
  simp only [Option.bind_eq_bind, Option.bind_some, directoryEntry_eq _ h, ← apply_ite some]

theorem handleSystemEvent_eq (h : 12 ≤ msg.length) :
    handleSystemEvent p msg = some (p.handleSystemEvent msg) := by
  unfold handleSystemEvent ItchParser.handleSystemEvent
  rw [byteAt_eq (show kSystemEventCodeOffset < _ from (show 11 < _ by omega))]
  simp only [Option.bind_eq_bind, Option.bind_some, ← apply_ite some]

end Handlers

/-! ## Dispatch -/

theorem ite_some {α : Type*} {c : Prop} [Decidable c] {a b : Option α} {x y : α}
    (ha : c → a = some x) (hb : ¬ c → b = some y) :
    (if c then a else b) = some (if c then x else y) := by
  split
  · exact ha ‹_›
  · exact hb ‹_›

/-- The handler of each type finds the bytes it reads. -/
theorem dispatchType_eq {p : ItchParser} (locate : UInt16) {type : UInt8}
    (h : msg.length = expectedItchMessageLength type) :
    dispatchType p msg type locate = some (p.dispatchType msg type locate) := by
  have hlen : ∀ {c : Char}, type = byte c → msg.length = expectedItchMessageLength (byte c) :=
    fun hc => hc ▸ h
  unfold dispatchType ItchParser.dispatchType
  dsimp only
  refine ite_some (fun hc => ?_) fun _ => ite_some (fun hc => ?_) fun _ =>
    ite_some (fun hc => ?_) fun _ => ite_some (fun hc => ?_) fun _ =>
    ite_some (fun hc => ?_) fun _ => ite_some (fun hc => ?_) fun _ =>
    ite_some (fun hc => ?_) fun _ => ite_some (fun _ => rfl) fun _ =>
    ite_some (fun hc => ?_) fun _ => ite_some (fun hc => ?_) fun _ =>
    ite_some (fun _ => rfl) fun _ => rfl
  · rw [handleAdd_eq locate (hlen hc).ge, Option.map_some]
  · rw [handleAdd_eq locate (le_trans (by decide) (hlen hc).ge), Option.map_some]
  · rw [handleOrderExecuted, applyExecution_eq locate (hlen hc).ge, Option.map_some]
    rfl
  · rw [handleOrderExecutedWithPrice_eq locate (hlen hc).ge, Option.map_some]
  · rw [handleCancel_eq locate (hlen hc).ge, Option.map_some]
  · rw [handleDelete_eq locate (hlen hc).ge, Option.map_some]
  · rw [handleReplace_eq locate (hlen hc).ge, Option.map_some]
  · rw [handleStockDirectory_eq (hlen hc).ge, Option.map_some]
  · rw [handleSystemEvent_eq (hlen hc).ge, Option.map_some]

theorem dispatchMessage_eq {p : ItchParser} (h : WellSized msg) (hmin : 12 ≤ msg.length) :
    dispatchMessage p msg = some (p.dispatchMessage msg) := by
  unfold dispatchMessage ItchParser.dispatchMessage
  rw [byteAt_eq (by omega), readU16BE_eq (by omega), timestamp_eq (by omega)]
  dsimp only [Option.bind_eq_bind, Option.bind_some]
  have hcode : (if Wire.byteAt msg 0 = byte 'S' then byteAt msg Wire.kSystemEventCodeOffset
      else some 0) = some (if Wire.byteAt msg 0 = byte 'S' then
        Wire.byteAt msg Wire.kSystemEventCodeOffset else 0) :=
    ite_some (fun _ => byteAt_eq (show 11 < _ by omega)) fun _ => rfl
  rw [hcode]
  refine ite_some (fun _ => rfl) fun _ => ite_some (fun _ => rfl) fun _ =>
    ite_some (fun _ => rfl) fun _ => ite_some (fun _ => rfl) fun _ =>
    ite_some (fun _ => rfl) fun _ => ?_
  exact dispatchType_eq _ h.2

end Checked

end AstraFeed
