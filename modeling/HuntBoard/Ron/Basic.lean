-- The values of RON, the notation that configurations are written in, as far as
-- configurations are made of them; all other values are only known to be others.

namespace HuntBoard

inductive Ron where
  /-- A name that stands alone. -/
  | word (name : String)
  /-- A whole number without a sign. -/
  | number (n : Nat)
  | text (s : String)
  /-- Values in parentheses, perhaps behind a name. -/
  | tuple (name : Option String) (items : List Ron)
  /-- Named values in parentheses, perhaps behind a name. -/
  | record (name : Option String) (fields : List (String × Ron))
  | other

end HuntBoard
