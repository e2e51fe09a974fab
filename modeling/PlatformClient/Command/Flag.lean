import PlatformClient.Command.Refusal

namespace PlatformClient.Command

/-- The options of the command line. -/
inductive Flag where
  | config
  | profile
  | curl
  | quiet
  | verbose
  | header
  | expect
  | output
  | timeout
  | data
  | dataFile
  | contentType
  | accept
  | help
  | version
  deriving DecidableEq, Repr

namespace Flag

/-- The name behind two hyphens. -/
def long : Flag → String
  | .config => "config"
  | .profile => "profile"
  | .curl => "curl"
  | .quiet => "quiet"
  | .verbose => "verbose"
  | .header => "header"
  | .expect => "expect"
  | .output => "output"
  | .timeout => "timeout"
  | .data => "data"
  | .dataFile => "data-file"
  | .contentType => "content-type"
  | .accept => "accept"
  | .help => "help"
  | .version => "version"

/-- The letter behind one hyphen, where there is one. -/
def short? : Flag → Option Char
  | .quiet => some 'q'
  | .verbose => some 'v'
  | .header => some 'H'
  | .output => some 'o'
  | .data => some 'd'
  | .help => some 'h'
  | .version => some 'V'
  | _ => none

/-- How often an option may be given, and whether it has a value. -/
inductive Arity where
  | switch
  | single
  | repeated
  deriving DecidableEq, Repr

def arity : Flag → Arity
  | .curl => .switch
  | .quiet => .switch
  | .verbose => .switch
  | .help => .switch
  | .version => .switch
  | .header => .repeated
  | .expect => .repeated
  | _ => .single

def hasValue (flag : Flag) : Bool := flag.arity != .switch

end Flag

/-- A whole number of decimal digits, with a sign in front where one is
allowed. -/
def readDigits (cs : List Char) : Option Nat :=
  if ¬ cs.isEmpty ∧ cs.all Char.isDigit then
    some (cs.foldl (fun value c => value * 10 + (c.toNat - '0'.toNat)) 0)
  else none

def readInteger : List Char → Option Int
  | '+' :: cs => (readDigits cs).map Int.ofNat
  | '-' :: cs => (readDigits cs).map fun value => -Int.ofNat value
  | cs => (readDigits cs).map Int.ofNat

/-- A status as it is expected, of at most 16 bits. -/
def readStatus (s : String) : Option Nat := do
  let value ← readInteger s.toList
  if 0 ≤ value ∧ value < 0x10000 then some value.toNat else none

/-- A number of seconds of at most 64 bits. -/
def readSeconds (s : String) : Option Nat := do
  let value ← match s.toList with
    | '+' :: cs => readDigits cs
    | cs => readDigits cs
  if value < 0x10000000000000000 then some value else none

/-- Refuses the values that an option cannot have. -/
def Flag.check (flag : Flag) (value : String) : Except Refusal Unit :=
  match flag with
  | .config => if value.isEmpty then .error .noValue else .ok ()
  | .dataFile => if value.isEmpty then .error .noValue else .ok ()
  | .expect => if (readStatus value).isSome then .ok () else .error .badValue
  | .timeout => if (readSeconds value).isSome then .ok () else .error .badValue
  | _ => .ok ()

end PlatformClient.Command
