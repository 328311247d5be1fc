import AstraFeed.BookManager
import AstraFeed.StockDirectory

/-!
# The audit of the books against the directory
-/

namespace AstraFeed

structure BookDirectoryAudit where
  registeredSymbols : ℕ
  materializedBooks : ℕ
  preparedBooks : UInt32
  registeredBooksMissing : ℕ
  unregisteredBooksPresent : ℕ
  descriptorPriceStateMismatches : ℕ
  descriptorIdentityMismatches : ℕ
  deriving DecidableEq

def BookDirectoryAudit.clean (audit : BookDirectoryAudit) : Bool :=
  audit.registeredBooksMissing = 0 ∧ audit.unregisteredBooksPresent = 0
    ∧ audit.descriptorPriceStateMismatches = 0 ∧ audit.descriptorIdentityMismatches = 0
    ∧ audit.registeredSymbols = audit.materializedBooks
    ∧ audit.registeredSymbols = audit.preparedBooks.toNat

namespace BookManager

/-- The body of the audit's loop. -/
def auditSlot (m : BookManager) (directory : StockDirectory) (audit : BookDirectoryAudit)
    (slot : ℕ) : BookDirectoryAudit :=
  let locate := slot.toUInt16
  let registered := directory.isRegistered locate
  let book := m.books locate
  let materialized := book.isSome
  let priceStatePrepared := m.prices.isBookPrepared locate
  let identityMismatch := match book with
    | none => false
    | some book => decide (book.stockLocate ≠ locate ∨ book.symbolId ≠ locate.toUInt32)
  { audit with
    materializedBooks := audit.materializedBooks + materialized.toNat
    registeredBooksMissing := audit.registeredBooksMissing
      + (registered && (!materialized || !priceStatePrepared)).toNat
    unregisteredBooksPresent := audit.unregisteredBooksPresent
      + (!registered && (materialized || priceStatePrepared)).toNat
    descriptorPriceStateMismatches := audit.descriptorPriceStateMismatches
      + (materialized != priceStatePrepared).toNat
    descriptorIdentityMismatches := audit.descriptorIdentityMismatches + identityMismatch.toNat }

def auditDirectory (m : BookManager) (directory : StockDirectory) : BookDirectoryAudit :=
  (List.range' 1 (kStockLocateSlots - 1)).foldl (m.auditSlot directory)
    ⟨directory.size, 0, m.prices.preparedBookCount, 0, 0, 0, 0⟩

end BookManager

end AstraFeed
