import PlatformClient.Proofs.CurlCommands
import PlatformClient.Proofs.DecodeExcerpts
import PlatformClient.Proofs.PreparedRequests

namespace PlatformClient

namespace Url

/-- The scheme begins with a letter. -/
def Named (url : Url) : Prop := ∃ c rest, url.scheme.toList = c :: rest ∧ c.isAlpha = true

/-- A scheme that is read is one whose first character was looked at for itself, and only
letters pass there. Lower case makes letters of letters. -/
theorem named_of_readScheme {cs rest : List Char} {scheme : String}
    (read : readScheme cs = some (scheme, rest)) :
    ∃ c letters, scheme.toList = c :: letters ∧ c.isAlpha = true := by
  unfold readScheme at read
  split at read
  · cases read
  · rename_i c others
    split_ifs at read with letter
    have schemeChar : isSchemeChar c = true := by
      simp [isSchemeChar, Char.isAlphanum, letter]
    have lower : c.toLower.isAlpha = true := by
      rw [Text.isAlpha_toLower, letter]
    split at read
    · cases read
      refine ⟨c.toLower, (others.takeWhile isSchemeChar).map Char.toLower, ?_, lower⟩
      rw [String.toList_ofList, List.takeWhile_cons_of_pos schemeChar, List.map_cons]
    · cases read

/-- So does the scheme of every address that is read, and no word that begins with a letter
is taken for an option. -/
theorem named_of_read {text : String} {url : Url} (known : read text = .ok url) : url.Named := by
  unfold read readChars at known
  split at known
  · cases known
  · rename_i scheme rest found
    obtain ⟨parts, -, made⟩ := bind_eq_ok_iff.mp known
    cases made
    exact named_of_readScheme found

theorem Named.join {base url : Url} {path : String} (named : base.Named)
    (joined : base.join? path = some url) : url.Named := by
  unfold join? at joined
  split_ifs at joined
  cases joined
  exact named

end Url

/-- The requests that are made of a profile go to addresses of this kind. -/
theorem Profile.named_of_requestOf {profile : Profile} {call : Call} {options : CallOptions}
    {request : Http.Request} (made : profile.requestOf call options = .ok request) :
    request.url.Named := by
  obtain ⟨context, known, made⟩ := Profile.requestOf_eq_ok_iff.mp made
  obtain ⟨content, url, lower, upper, -, address, -, -, rfl⟩ := CallContext.request_eq_ok_iff.mp made
  obtain ⟨base, read, same⟩ := bind_eq_ok_iff.mp known
  cases same
  have named : base.Named := Url.named_of_read (mapError_eq_ok_iff.mp read)
  exact named.join (CallContext.callUrl_eq_ok_iff.mp address)

namespace Text

theorem encodeChars_injective {cs more : List Char} (same : encodeChars cs = encodeChars more) :
    cs = more := by
  have decoded := congrArg decodeChars? same
  rw [decodeChars?_encodeChars, decodeChars?_encodeChars] at decoded
  exact Option.some.inj decoded

end Text

namespace Http.Curl

/-- What curl makes of a value of `-d`: a text to send, or behind an at sign the name of a
file with what to send. A single hyphen names the standard input, which is one more file
here. -/
inductive Upload where
  | literal (text : List Char)
  | file (path : List Char)
  deriving DecidableEq, Repr

namespace Upload

def ofValue : List Char → Upload
  | '@' :: path => .file path
  | text => .literal text

/-- What is sent of the content of a file: all but line ends and zero bytes. -/
def ofContent (content : Bytes) : Bytes :=
  content.filter fun byte => byte != 0x0A && byte != 0x0D && byte != 0

/-- What is sent where these are the files that can be read. -/
def bytes? (files : List Char → Option Bytes) : Upload → Option Bytes
  | .literal text => some (Text.encodeChars text)
  | .file path => (files path).map ofContent

theorem ofValue_of_other {text : List Char} (other : text.head? ≠ some '@') :
    ofValue text = .literal text := by
  unfold ofValue
  split
  · exact absurd rfl other
  · rfl

end Upload

/-- The values of `-d` among the arguments of curl. The other options that a command has,
for the method and for a header, have a value too, which is passed over whatever it looks
like. No further option is understood. -/
def uploads? : List (List Char) → Option (List Upload)
  | [] => some []
  | ('-' :: option) :: words =>
    match words with
    | [] => none
    | value :: rest =>
      if option = ['d'] then (uploads? rest).map (Upload.ofValue value :: ·)
      else if option = ['X'] ∨ option = ['H'] then uploads? rest
      else none
  | _ :: rest => uploads? rest

/-- A word as it reaches a program, for which the zero character ends an argument, so that
nothing behind it is seen. -/
def handed (word : List Char) : List Char := word.takeWhile (· != '\x00')

/-- What curl sends as body when it is run by the words of a command, where it can read all
files that are named. Several values are joined by ampersands. -/
def sentBody? (files : List Char → Option Bytes) (words : List (List Char)) : Option Bytes := do
  let uploads ← uploads? ((words.drop 1).map handed)
  let parts ← uploads.mapM (Upload.bytes? files)
  return List.intercalate [0x26] parts

section Words

variable {files : List Char → Option Bytes} {text : List Char} {request : Request}

theorem uploads?_data (value : List Char) (rest : List (List Char)) :
    uploads? ("-d".toList :: value :: rest) =
      (uploads? rest).map (Upload.ofValue value :: ·) := rfl

theorem uploads?_method (value : List Char) (rest : List (List Char)) :
    uploads? ("-X".toList :: value :: rest) = uploads? rest := rfl

theorem uploads?_headers (lines : List (String × String)) (rest : List (List Char)) :
    uploads? ((lines.flatMap fun line =>
        ["-H".toList, handed (line.1 ++ ": " ++ line.2).toList]) ++ rest) = uploads? rest := by
  induction lines with
  | nil => rfl
  | cons line lines ih =>
    rw [List.flatMap_cons, List.append_assoc, ← ih]
    rfl

theorem uploads?_address {url : Url} (named : url.Named) :
    uploads? [handed url.print.toList] = some [] := by
  obtain ⟨c, rest, scheme, letter⟩ := named
  have visible : c ≠ '\x00' := by
    rintro rfl
    cases letter
  have value : c ≠ '-' := by
    rintro rfl
    cases letter
  rw [Url.print, String.toList_ofList, Url.printChars, scheme, handed, List.cons_append,
    List.cons_append, List.cons_append, List.takeWhile_cons, if_pos (bne_iff_ne.mpr visible)]
  unfold uploads?
  split
  · rename_i same
    cases same
  · rename_i same
    cases same
    exact absurd rfl value
  · rename_i same
    cases same
    rfl

theorem words?_command (request : Request) :
    Shell.words? (command request).toList = some ((meantWords request).map String.toList) := by
  rw [command, String.toList_ofList]
  exact Shell.words?_intercalate (words_denote request)

/-- The words of a command as they reach curl. The zero character can cut the values, but
not the options in front of them, so their order stays. -/
theorem handed_meantWords (request : Request) :
    (((meantWords request).map String.toList).drop 1).map handed =
      "-X".toList :: handed request.method.name.toList ::
        ((data? request).toList.flatMap fun text => ["-d".toList, handed text.toList]) ++
        ((shownHeaders request.headers).flatMap fun line =>
          ["-H".toList, handed (line.1 ++ ": " ++ line.2).toList]) ++
        [handed request.url.print.toList] := by
  have plain : handed "-X".toList = "-X".toList ∧ handed "-d".toList = "-d".toList ∧
      handed "-H".toList = "-H".toList := by decide
  simp only [meantWords, List.map_append, List.map_cons, List.map_nil, List.map_flatMap,
    List.cons_append, List.nil_append, List.drop_succ_cons, List.drop_zero, plain]

/-- What is given with `-d` is all that the words of a command send. The value of a header
cannot be mistaken for an option, nor can the address, which begins with a letter. -/
theorem sentBody?_meantWords (named : request.url.Named) {data : String}
    (given : data? request = some data) :
    sentBody? files ((meantWords request).map String.toList) =
      (Upload.ofValue (handed data.toList)).bytes? files := by
  have found : uploads? ((((meantWords request).map String.toList).drop 1).map handed) =
      some [Upload.ofValue (handed data.toList)] := by
    rw [handed_meantWords, given, List.cons_append, List.cons_append, List.cons_append,
      List.cons_append, uploads?_method]
    simp only [Option.toList_some, List.flatMap_cons, List.flatMap_nil, List.append_nil,
      List.cons_append, List.nil_append, uploads?_data, uploads?_headers, uploads?_address named,
      Option.map_some]
  rw [sentBody?, found]
  cases sent : (Upload.ofValue (handed data.toList)).bytes? files with
  | none => simp [sent]
  | some body => simp [sent]

theorem handed_eq_self_iff : handed text = text ↔ '\x00' ∉ text := by
  rw [handed, List.takeWhile_eq_self_iff]
  constructor
  · exact fun visible found => bne_iff_ne.mp (visible _ found) rfl
  · intro whole c found
    refine bne_iff_ne.mpr ?_
    rintro rfl
    exact whole found

theorem handed_cons_at (path : List Char) : handed ('@' :: path) = '@' :: handed path := rfl

/-- A text is sent as it is exactly where it names no file and no zero character cuts it. A
text that names a file could be sent by chance, from a file with that very content, so the
files are any. -/
theorem bytes?_handed_iff :
    (∀ files, (Upload.ofValue (handed text)).bytes? files = some (Text.encodeChars text)) ↔
      text.head? ≠ some '@' ∧ '\x00' ∉ text := by
  constructor
  · intro sent
    have literal : text.head? ≠ some '@' := by
      intro marked
      obtain ⟨path, rfl⟩ := List.head?_eq_some_iff.mp marked
      have missing := sent fun _ => none
      rw [handed_cons_at, Upload.ofValue, Upload.bytes?] at missing
      cases missing
    have begins : (handed text).head? ≠ some '@' := by
      intro marked
      refine literal ?_
      cases text with
      | nil => cases marked
      | cons c rest =>
        rw [handed, List.takeWhile_cons] at marked
        split at marked
        · exact marked
        · cases marked
    have same := sent fun _ => none
    rw [Upload.ofValue_of_other begins, Upload.bytes?] at same
    exact ⟨literal, handed_eq_self_iff.mp (Text.encodeChars_injective (Option.some.inj same))⟩
  · rintro ⟨literal, whole⟩ files
    rw [handed_eq_self_iff.mpr whole, Upload.ofValue_of_other literal, Upload.bytes?]

/-- The body of a request is what curl is told to send, and what it sends where the body
does not begin with an at sign and holds no zero character. Behind an at sign it sends the
content of a local file. The quoting plays no part in this: the word is the body, and it is
curl that takes it for something else. -/
theorem uploaded_body {request : Request} {body : String} (named : request.url.Named)
    (given : request.body = some (Text.encode body)) (single : ¬ Multipart request) :
    ∃ words, Shell.words? (command request).toList = some words ∧
      words[3]? = some "-d".toList ∧ words[4]? = some body.toList ∧
      ((∀ files, sentBody? files words = request.body) ↔
        body.toList.head? ≠ some '@' ∧ '\x00' ∉ body.toList) ∧
      ∀ path, body.toList = '@' :: path → ∀ files,
        sentBody? files words = (files (handed path)).map Upload.ofContent := by
  have data : data? request = some body := by
    rw [data?, if_neg (mt (isMultipart_iff request).mp single), given, Option.map_some,
      Text.decodeLossy_encode]
  have sent (files : List Char → Option Bytes) :
      sentBody? files ((meantWords request).map String.toList) =
        (Upload.ofValue (handed body.toList)).bytes? files := sentBody?_meantWords named data
  refine ⟨(meantWords request).map String.toList, ?_, ?_, ?_, ?_, ?_⟩
  · exact words?_command request
  · rw [meantWords, data]
    rfl
  · rw [meantWords, data]
    rfl
  · simp only [sent, given]
    exact bytes?_handed_iff
  · intro path marked files
    rw [sent, marked, handed_cons_at, Upload.ofValue, Upload.bytes?]

end Words

/-- A note that is sent as a plain text. -/
def noteRequest (note : String) : Request where
  method := .post
  url := {
    scheme := "http", authority := some ⟨"", none, .domain "platform.test", none⟩
    path := .segments ["notes"], query := none, fragment := none }
  headers := Headers.ofLines [
    (.accept, Text.encode "application/json"), (.authorization, Text.encode "Bearer tok"),
    (.contentType, Text.encode "text/plain")]
  body := some (Text.encode note)

/-- The request that is made of a call that sends a note. -/
def noteOf (note : String) : Except CallError Request :=
  Profile.requestOf { url := "http://platform.test", token := "tok" }
    ⟨.post, "/notes", some (.bytes (Text.encode note))⟩
    { headers := [("Content-Type", "text/plain")] }

theorem noteOf_eq_ok {note : String} (made : (noteOf note).toOption = some (noteRequest note)) :
    noteOf note = .ok (noteRequest note) := by
  cases known : noteOf note with
  | error error =>
    rw [known] at made
    cases made
  | ok request =>
    rw [known] at made
    rw [Option.some.inj made]

theorem uploaded_body_note :
    noteOf "it's" = .ok (noteRequest "it's") ∧
      ∃ words, Shell.words? (command (noteRequest "it's")).toList = some words ∧
        ∀ files, sentBody? files words = some (Text.encode "it's") := by
  have made : noteOf "it's" = .ok (noteRequest "it's") := noteOf_eq_ok (by decide +kernel)
  have single : isMultipart (noteRequest "it's") ≠ true := by decide +kernel
  obtain ⟨words, read, -, -, sent, -⟩ := uploaded_body (Profile.named_of_requestOf made) rfl
    (mt (isMultipart_iff _).mpr single)
  exact ⟨made, words, read, sent.mpr (by decide)⟩

theorem uploaded_body_of_file :
    noteOf "@notes.txt" = .ok (noteRequest "@notes.txt") ∧
      ¬ Multipart (noteRequest "@notes.txt") ∧
      ∃ words, Shell.words? (command (noteRequest "@notes.txt")).toList = some words ∧
        sentBody? (fun path =>
            if path = "notes.txt".toList then some (Text.encode "milk\n") else none) words =
          some (Text.encode "milk") := by
  have made : noteOf "@notes.txt" = .ok (noteRequest "@notes.txt") :=
    noteOf_eq_ok (by decide +kernel)
  have single : isMultipart (noteRequest "@notes.txt") ≠ true := by decide +kernel
  have data : data? (noteRequest "@notes.txt") = some "@notes.txt" := by decide +kernel
  refine ⟨made, mt (isMultipart_iff _).mpr single, _, words?_command _, ?_⟩
  rw [sentBody?_meantWords (Profile.named_of_requestOf made) data]
  decide +kernel

end Http.Curl

end PlatformClient
