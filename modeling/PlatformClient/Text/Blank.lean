namespace PlatformClient.Text

/-- The characters with the property of being white space. -/
def isBlank (c : Char) : Bool :=
  let n := c.toNat
  (9 ≤ n && n ≤ 13) || n == 0x20 || n == 0x85 || n == 0xA0 || n == 0x1680 ||
    (0x2000 ≤ n && n ≤ 0x200A) || n == 0x2028 || n == 0x2029 || n == 0x202F ||
    n == 0x205F || n == 0x3000

def trimCharsLeft (cs : List Char) : List Char := cs.dropWhile isBlank

/-- The text without the blanks at both its ends. -/
def trimChars (cs : List Char) : List Char :=
  (trimCharsLeft (trimCharsLeft cs).reverse).reverse

def trim (s : String) : String := String.ofList (trimChars s.toList)

/-- The text before the first occurrence of a character and the text after
it, or `none` when it does not occur. -/
def splitFirst (mark : Char) : List Char → Option (List Char × List Char)
  | [] => none
  | c :: rest =>
    if c = mark then some ([], rest)
    else (splitFirst mark rest).map fun (before, after) => (c :: before, after)

/-- The parts of a text between the occurrences of a character; there is one
part more than there are occurrences. -/
def splitAll (mark : Char) : List Char → List (List Char)
  | [] => [[]]
  | c :: rest =>
    if c = mark then [] :: splitAll mark rest
    else match splitAll mark rest with
      | [] => [[c]]
      | part :: parts => (c :: part) :: parts

end PlatformClient.Text
