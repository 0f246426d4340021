import TouchGestures.Scalar

namespace TouchGestures

inductive Datum
  | null
  | bool (b : Bool)
  | integer (n : Int)
  | real (x : Scalar)
  | text (s : String)
  | list (items : List Datum)
  | record (entries : List (String × Datum))

namespace Datum

-- The values of the named fields, in the order of the names. All have to be there, and
-- others are passed over. A list of just as many values may stand for the record.
def fields? (names : List String) : Datum → Option (List Datum)
  | .record entries => names.mapM fun name => entries.lookup name
  | .list items => if items.length = names.length then some items else none
  | _ => none

end Datum

end TouchGestures
