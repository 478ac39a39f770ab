import OfflineSupply.Yaml.Token

/-!
# Rows of tokens

A row of tokens grows at its end, and now and then near it: the tokens that mark a key are put
in front of what was already read.  The row is kept last token first, so that either takes no
longer than what stands behind the place.
-/

namespace OfflineSupply.Yaml

/-- A row of tokens. -/
structure TokenRow where
  lastFirst : List Token := []
  /-- The number of tokens, kept so that they need not be counted. -/
  size : Nat := 0
  length_lastFirst : lastFirst.length = size := by rfl

namespace TokenRow

/-- The tokens in their order. -/
def toList (row : TokenRow) : List Token :=
  row.lastFirst.reverse

/-- The row with one more token at its end. -/
def push (row : TokenRow) (token : Token) : TokenRow where
  lastFirst := token :: row.lastFirst
  size := row.size + 1
  length_lastFirst := by rw [List.length_cons, row.length_lastFirst]

/-- The row with one more token behind the first `place` ones. -/
def insert (row : TokenRow) (place : Nat) (token : Token) : TokenRow where
  lastFirst := row.lastFirst.insertIdx (row.size - place) token
  size := row.size + 1
  length_lastFirst := by
    rw [List.length_insertIdx_of_le_length, row.length_lastFirst]
    rw [row.length_lastFirst]
    exact Nat.sub_le ..

/-- The first `count` tokens. -/
def take (row : TokenRow) (count : Nat) : TokenRow where
  lastFirst := row.lastFirst.drop (row.size - count)
  size := min count row.size
  length_lastFirst := by rw [List.length_drop, row.length_lastFirst]; omega

@[simp]
theorem toList_push (row : TokenRow) (token : Token) :
    (row.push token).toList = row.toList ++ [token] :=
  List.reverse_cons

@[simp]
theorem toList_take (row : TokenRow) (count : Nat) :
    (row.take count).toList = row.toList.take count := by
  simp only [toList, take]
  rw [List.take_reverse, row.length_lastFirst]

end TokenRow

end OfflineSupply.Yaml
