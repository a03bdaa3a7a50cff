import EntropySupply.Settings.Token

/-!
# The value of a settings text

Tokens are put together into one value by a machine with a stack of the lists and objects that are
still open. Nesting may be of any depth, keys may repeat, and nothing may follow the value.
-/

namespace EntropySupply.Settings

inductive Tree where
  | null
  | bool (b : Bool)
  | number (n : Numeral)
  | text (units : List TextUnit)
  | list (items : List Tree)
  | object (fields : List (List TextUnit × Tree))

/-- A list or object that is still open. What it holds so far is listed latest first; an object
also has the key whose value comes next. -/
inductive Frame where
  | list (before : List Tree)
  | object (before : List (List TextUnit × Tree)) (key : List TextUnit)

/-- Whether the machine waits for a value or has just completed one. -/
inductive Expect where
  | value
  | after (done : Tree)

/-- Reads all tokens, given what is open and what is expected next. -/
def Tree.build? (stack : List Frame) (expect : Expect) (ts : List Token) : Option Tree :=
  match expect, ts with
  | .value, .null :: ts => build? stack (.after .null) ts
  | .value, .bool b :: ts => build? stack (.after (.bool b)) ts
  | .value, .number n :: ts => build? stack (.after (.number n)) ts
  | .value, .text us :: ts => build? stack (.after (.text us)) ts
  | .value, .openList :: .closeList :: ts => build? stack (.after (.list [])) ts
  | .value, .openList :: ts => build? (.list [] :: stack) .value ts
  | .value, .openObject :: .closeObject :: ts => build? stack (.after (.object [])) ts
  | .value, .openObject :: .text key :: .colon :: ts =>
    build? (.object [] key :: stack) .value ts
  | .value, _ => none
  | .after done, ts =>
    match stack, ts with
    | [], [] => some done
    | .list before :: stack, .comma :: ts => build? (.list (done :: before) :: stack) .value ts
    | .list before :: stack, .closeList :: ts =>
      build? stack (.after (.list (done :: before).reverse)) ts
    | .object before key :: stack, .comma :: .text next :: .colon :: ts =>
      build? (.object ((key, done) :: before) next :: stack) .value ts
    | .object before key :: stack, .closeObject :: ts =>
      build? stack (.after (.object ((key, done) :: before).reverse)) ts
    | _, _ => none
termination_by ts.length

def Tree.ofText? (text : String) : Option Tree :=
  (tokens? text).bind (build? [] .value)

end EntropySupply.Settings
