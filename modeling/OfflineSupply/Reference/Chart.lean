import OfflineSupply.Reference.Basic
import OfflineSupply.Reference.Error

/-!
# Chart references

A chart is named by the address of its repository, a slash, its name, a colon and its
version.  None of the three is empty, and the last slash and the last colon are the ones
that count.
-/

namespace OfflineSupply.Reference

/-- The reference to a chart that a text spells. -/
def ofChart (value : String) : Except Error Reference :=
  match Text.cutLast '/' value.toList with
  | (none, _) => .error (.chartWithoutRepository value)
  | (some [], _) => .error (.chartWithoutRepository value)
  | (some repository, last) =>
    match Text.cutLast ':' last with
    | (none, _) => .error (.chartWithoutVersion value)
    | (some name, version) =>
      if name.isEmpty || version.isEmpty then .error (.chartWithoutVersion value)
      else .ok
        { authority := some (String.ofList repository)
          path := String.ofList name
          version := some (String.ofList version) }

end OfflineSupply.Reference
