import RelTrace.Keyed
import RelTrace.Value

/-!
# Rows

A row holds values under attribute names, in order of insertion. The order shows where rows are
written, but it does not count when rows are told apart.

## Main definitions

* `Row.equal`: equal values under the same names.
* `Row.key`: the entries sorted by name, by which duplicates are found.
* `Row.project`: the entries of listed attributes.
-/

namespace RelTrace

/-- Values under attribute names. -/
abbrev Row := Keyed Value

namespace Row

/-- The rows have the same names and equal values under each. -/
def equal (r s : Row) : Bool := Keyed.equal Value.equal r s

/-- The identity of a row among others: its entries by name, with a single zero. -/
def key (r : Row) : List (String × Value) :=
  (r.entries.map fun (name, v) => (name, v.unsignedZero)).mergeSort fun a b => decide (a.1 ≤ b.1)

/-- The listed attributes that the row has, in the order of the list. -/
def project (r : Row) (attributes : List String) : Row :=
  .ofList (attributes.filterMap fun name => (r.find? name).map fun v => (name, v))

end Row

end RelTrace
