import CodeAtlas.Text.Split

/-!
Conditions stated in doc comments, on lines that start with `Requires:` or
`Ensures:`.
-/
namespace CodeAtlas.Invariant

/-- Whether two characters are the same letter but for case. The long s counts
as an s. -/
def sameLetter (lower c : Char) : Bool := c = lower || c = lower.toUpper || (lower = 's' && c = 'ſ')

/-- What follows a word at the start of a text, in whatever case the word is
written. -/
def afterWord : List Char → List Char → Option (List Char)
  | [], rest => some rest
  | _ :: _, [] => none
  | w :: word, c :: rest => if sameLetter w c then afterWord word rest else none

/-- The condition on a line that starts with a label, without the blanks around it. -/
def condition (label line : String) : Option String :=
  (afterWord label.toList (line.toList.dropWhile Text.isBlank)).map fun rest =>
    Text.trim (String.ofList rest)

/-- The last condition with a label, unless that is empty. -/
def last (label : String) (doc : String) : Option String :=
  match ((Text.lines doc).filterMap (condition label)).getLast? with
  | some "" => none
  | found => found

def ofDocstring (doc : String) : Option String :=
  match last "requires:" doc, last "ensures:" doc with
  | some r, some e => some s!"requires({r}) ∧ ensures({e})"
  | some r, none => some s!"requires({r})"
  | none, some e => some s!"ensures({e})"
  | none, none => none

end CodeAtlas.Invariant
