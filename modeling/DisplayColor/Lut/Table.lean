import DisplayColor.Numeral.Layout

/-! # Tables

What curve tables and cube tables have in common: the reasons for which raw data make no table, the
room that a table needs, reads that miss its entries, and references to one table by many
holders. -/

namespace DisplayColor

/-! ## Unusable tables -/

/-- Why raw data do not make a lookup table. -/
inductive LutError (α : Type)
  | channelLengths (red green blue : Nat)
  | tooFewEntries (count : Nat)
  /-- A cube of the given size needs `expected` entries. -/
  | entryCount (expected size count : Nat)
  | domain (min max : α)
  /-- The entry at `index`, the first such, has an infinite or undefined component. -/
  | notFinite (index : Nat)
  /-- There are more entries than a memory can hold. -/
  | noRoom
deriving Repr

def LutError.message : LutError Single → String
  | .channelLengths red green blue =>
    s!"invalid LUT size: channel lengths differ: {red}, {green}, {blue}"
  | .tooFewEntries count => s!"invalid LUT size: need at least 2 entries, got {count}"
  | .entryCount expected size count =>
    s!"invalid LUT size: expected {expected} entries for size {size}, got {count}"
  | .domain min max =>
    "invalid input domain: [" ++ plainText min ++ ", " ++ plainText max ++ "]"
  | .notFinite index => s!"non-finite LUT entry at index {index}"
  | .noRoom => "capacity overflow"

/-! ## Room

Entries are counted in 64-bit words, as they are where tables are stored, and a table takes up less
than half of what a word can count in bytes.  A size whose count of entries passes that limit leaves
no room for the table. -/

/-- The number of values of a 64-bit word. -/
def wordCount : Nat := UInt64.size

/-- The bytes of an entry: three components of four bytes. -/
def entryBytes : Nat := 12

/-- The size of a table with `size` points along each of `axes` axes, if there is room for it. -/
def sizeWithRoom {α : Type} (axes size : Nat) : Except (LutError α) Nat :=
  if entryBytes * (Nat.pow size axes % wordCount) < wordCount / 2 then .ok size else .error .noRoom

/-! ## Reads -/

/-- A read outside a table with `count` entries. -/
structure OutOfBounds where
  count : Nat
  index : Nat
deriving DecidableEq, Repr

def OutOfBounds.message (cause : OutOfBounds) : String :=
  let count := cause.count
  let index := cause.index
  s!"index out of bounds: the len is {count} but the index is {index}"

/-! ## Shared tables

A lookup table is made once and then held by any number of pipelines and texture caches.  Two
references are the same table when they have the same address, whatever the entries are.

An address is only good while the table is held by someone: once the last holder lets go, a new
table may be given the same address.  The serial number is never given out twice.  It is what "the
same table" means over time, and nothing that a program does may depend on it. -/

/-- A reference to a table that others may hold too. -/
structure Shared (β : Type) where
  /-- Which table this is, among all that were ever made. -/
  serial : Nat
  /-- Where the table lives, among those that are held now. -/
  address : Nat
  table : β

namespace Shared

def same {β : Type} (a b : Shared β) : Bool := a.address == b.address

end Shared

end DisplayColor
