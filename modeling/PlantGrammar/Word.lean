import PlantGrammar.Text.Printable

/-!
# Words over an alphabet of characters

A grammar expands words, and a turtle reads them. A symbol is one character,
of any width in bytes. Sizes in bytes are those of the UTF-8 form.

A message shows a word between double quotes. The quote and the backslash are
escaped, four controls have a letter, and any other character that a reader
could not see is given by its number in hexadecimal digits.
-/
namespace PlantGrammar

abbrev Symbol := Char

abbrev Word := List Symbol

namespace Word

/-- Size of the UTF-8 form. -/
def byteSize (w : Word) : Nat := w.foldl (fun n c => n + c.utf8Size) 0

/-- The lines of a text. A text that ends in a line feed has an empty last line. -/
def lines (text : Word) : List Word := text.splitOn '\n'

private theorem foldl_utf8Size (w : Word) (n : Nat) :
    w.foldl (fun n c => n + c.utf8Size) n = n + w.byteSize := by
  induction w generalizing n with
  | nil => rfl
  | cons c w ih =>
      have whole : byteSize (c :: w) = c.utf8Size + byteSize w := by
        rw [← ih, byteSize, List.foldl_cons, Nat.zero_add]
      rw [List.foldl_cons, ih, whole, Nat.add_assoc]

@[simp] theorem byteSize_nil : byteSize [] = 0 := rfl

@[simp] theorem byteSize_cons (c : Symbol) (w : Word) :
    byteSize (c :: w) = c.utf8Size + byteSize w := by
  rw [← foldl_utf8Size, byteSize, List.foldl_cons, Nat.zero_add]

@[simp] theorem byteSize_append (u v : Word) :
    byteSize (u ++ v) = byteSize u + byteSize v := by
  induction u with
  | nil => simp
  | cons c u ih => simp [ih, Nat.add_assoc]

end Word

namespace Quoted

/-- The number of a character between braces. -/
def numbered (c : Char) : List Char :=
  '\\' :: 'u' :: '\x7b' :: Nat.toDigits 16 c.toNat ++ ['\x7d']

/-- What stands for one character inside the quotes. -/
def escape (c : Char) : List Char :=
  if c = '\x00' then ['\\', '0']
  else if c = '\t' then ['\\', 't']
  else if c = '\n' then ['\\', 'n']
  else if c = '\r' then ['\\', 'r']
  else if c = '"' ∨ c = '\\' then ['\\', c]
  else if Printable.isVisible c then [c]
  else numbered c

def encode (text : List Char) : List Char := '"' :: text.flatMap escape ++ ['"']

end Quoted
end PlantGrammar
