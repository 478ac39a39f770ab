import OfflineSupply.Text.Blank
import OfflineSupply.Text.Lines

/-!
# Listings

A listing is a text with one entry on a line.  White space around an entry and lines without
an entry do not count.
-/

namespace OfflineSupply.Listing

/-- The entries of a listing, in order. -/
def entries (content : String) : List String :=
  (((Text.lines content.toList).map Text.trim).filter (· ≠ [])).map String.ofList

end OfflineSupply.Listing
