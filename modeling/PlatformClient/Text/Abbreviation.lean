namespace PlatformClient.Text

def ellipsis : Char := '…'

/-- At most `limit` characters of a text. Where something is cut, the last
character shown is an ellipsis. -/
def abbreviateChars (cs : List Char) (limit : Nat) : List Char :=
  if cs.length ≤ limit then cs
  else match limit with
    | 0 => []
    | kept + 1 => cs.take kept ++ [ellipsis]

def abbreviate (s : String) (limit : Nat) : String :=
  String.ofList (abbreviateChars s.toList limit)

end PlatformClient.Text
