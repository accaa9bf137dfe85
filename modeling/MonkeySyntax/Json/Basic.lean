/-!
# JSON values

The JSON values without fractions.  The fields of a record are in the order in which they
are written.
-/

namespace MonkeySyntax

/-- A JSON value whose numbers are integers. -/
inductive Json where
  | null
  | boolean (value : Bool)
  | integer (value : Int)
  | text (value : String)
  | list (items : List Json)
  | record (fields : List (String × Json))
deriving BEq, Repr, Inhabited

end MonkeySyntax
