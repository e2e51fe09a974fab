namespace PlatformClient.Shell

/-- A character inside single quotes. A single quote cannot stand there, so
the quotes are closed around an escaped one. -/
def quotedChar (c : Char) : List Char :=
  if c = '\'' then ['\'', '\\', '\'', '\''] else [c]

/-- A text as one word in which a shell finds nothing to interpret. -/
def quote (cs : List Char) : List Char := '\'' :: cs.flatMap quotedChar ++ ['\'']

end PlatformClient.Shell
