/-!
# Pages

A page skips `offset` rows and takes `limit` of the rest.
-/

namespace RowPolicy

/-- A window on the rows of a query. -/
structure Page where
  limit : UInt64
  offset : UInt64
  deriving DecidableEq, Repr

/-- The page number `current` of pages of `size` rows. Numbers begin at one, and zero counts as
one. An offset that does not fit in 64 bits becomes the greatest that does. -/
def Page.of (current size : UInt64) : Page :=
  ⟨size, .ofNat (min ((current.toNat - 1) * size.toNat) (UInt64.size - 1))⟩

end RowPolicy
