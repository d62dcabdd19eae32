import MarkerGen.Text

/-! Taking a declared name out of the text that declares it. -/
namespace MarkerGen.Words

/-- Looks backwards for the last whole-word occurrence of a word. The text is given reversed,
as is the word; `after` is what has been passed, and `skip` characters of it belong to a
rejected occurrence. -/
def findLast (word : List Char) (skip : Nat) (after : List Char) :
    List Char → Option (List Char × List Char)
  | [] => none
  | c :: rest =>
    match skip, Chars.afterLead? word (c :: rest) with
    | 0, some before =>
      if before.head?.any Chars.isWordChar || after.head?.any Chars.isWordChar then
        findLast word (word.length - 1) (c :: after) rest
      else some (before.reverse, after)
    | skip, _ => findLast word (skip - 1) (c :: after) rest

/-- Removes the last occurrence of a word that is not part of a longer one. -/
def removeLast (text word : List Char) : List Char :=
  match findLast word.reverse 0 [] text.reverse with
  | some (before, after) => Chars.squash (before ++ ' ' :: after)
  | none => text

def declaratorSuffix (declarator name : List Char) : List Char :=
  let unnamed := removeLast (Chars.squash declarator) name
  (Chars.trim (unnamed.takeWhile fun c => c != '=' && c != '\x7b')).filter (· != ' ')

end MarkerGen.Words
