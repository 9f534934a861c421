import SearchExpr.Text.Blank

/-! # Files of variables

A file of variables assigns a text to a name on each line. Quoted texts may go over several lines
and hold escapes, other texts end where a comment starts; any text can refer to other variables. A
line that cannot be read is passed over.
-/

namespace SearchExpr.Variables

/-- Writes every line end as a line feed. -/
def unifyLineEnds : List Char → List Char
  | '\r' :: '\n' :: rest => '\n' :: unifyLineEnds rest
  | '\r' :: rest => '\n' :: unifyLineEnds rest
  | c :: rest => c :: unifyLineEnds rest
  | [] => []

/-- A blank that does not end the line. -/
def isGap (c : Char) : Bool :=
  Text.isBlank c && c != '\n'

def restOfLine (s : List Char) : List Char :=
  (s.dropWhile (· != '\n')).drop 1

/-- The lines after this one, on which only a comment may follow. -/
def closeLine? (s : List Char) : Option (List Char) :=
  match s.dropWhile isGap with
  | [] => some []
  | '\n' :: rest => some rest
  | '#' :: rest => some (restOfLine rest)
  | _ => none

/-! ## Names -/

def isNameChar (c : Char) : Bool :=
  !(c == '=' || c == '#' || Text.isBlank c)

/-- Drops the word `export` if a blank follows it. -/
def dropExport (s : List Char) : List Char :=
  match "export".toList.isPrefixOf s, s.drop 6 with
  | true, c :: rest => if isGap c then rest.dropWhile isGap else s
  | _, _ => s

/-- A name, which may stand between apostrophes, and what follows it. -/
def name? (s : List Char) : Option (List Char × List Char) :=
  match s with
  | '\x27' :: rest =>
    match rest.takeWhile (· != '\x27'), rest.dropWhile (· != '\x27') with
    | c :: name, _ :: after => some (c :: name, after)
    | _, _ => none
  | s =>
    match s.takeWhile isNameChar with
    | [] => none
    | name => some (name, s.dropWhile isNameChar)

/-! ## Texts -/

/-- The text up to the closing mark, and what follows the mark. A mark after a backslash closes the
text only if no other one does. -/
def quotedPart? (mark : Char) : List Char → Option (List Char × List Char)
  | [] => none
  | '\\' :: c :: rest =>
    if c == mark then
      match quotedPart? mark rest with
      | some (text, after) => some ('\\' :: c :: text, after)
      | none => some (['\\'], rest)
    else (quotedPart? mark (c :: rest)).map fun (text, after) => ('\\' :: text, after)
  | c :: rest =>
    if c == mark then some ([], rest)
    else (quotedPart? mark rest).map fun (text, after) => (c :: text, after)

/-- What the letters after a backslash stand for between double quotes. -/
def controlEscapes : List (Char × Char) :=
  [ ('a', '\x07'), ('b', '\x08'), ('f', '\x0c'), ('n', '\n'), ('r', '\r'), ('t', '\t'),
    ('v', '\x0b'), ('\x22', '\x22') ]

/-- What a character after a backslash stands for in a text between two such marks. -/
def escaped? (mark c : Char) : Option Char :=
  if c == '\\' || c == '\x27' then some c
  else if mark == '\x22' then controlEscapes.lookup c
  else none

def unescape (mark : Char) : List Char → List Char
  | '\\' :: c :: rest =>
    match escaped? mark c with
    | some e => e :: unescape mark rest
    | none => '\\' :: unescape mark (c :: rest)
  | c :: rest => c :: unescape mark rest
  | [] => []

/-- The text up to a comment, which starts after a blank. -/
def beforeComment (afterBlank : Bool) : List Char → List Char
  | [] => []
  | c :: rest =>
    if afterBlank && c == '#' then [] else c :: beforeComment (Text.isBlank c) rest

def quotedText? (mark : Char) (s : List Char) : Option (List Char × List Char) :=
  (quotedPart? mark s).map fun (text, after) => (unescape mark text, after)

/-- The text that starts here, and what follows it. -/
def text? : List Char → Option (List Char × List Char)
  | '\x27' :: rest => quotedText? '\x27' rest
  | '\x22' :: rest => quotedText? '\x22' rest
  | s =>
    let line := s.takeWhile (· != '\n')
    some (Text.dropBlankEnd (beforeComment false line), s.dropWhile (· != '\n'))

/-! ## Assignments -/

/-- A variable and its text, which is absent when the name stands alone. -/
abbrev Assignment := String × Option String

/-- The rest of the line after a name and perhaps its text. -/
def closeAssignment (name : List Char) (text : Option (List Char)) (after : List Char) :
    Option Assignment × List Char :=
  match closeLine? after with
  | some rest => (some (String.ofList name, text.map String.ofList), rest)
  | none => (none, restOfLine after)

/-- What the first line assigns, and the lines after it. -/
def assignment (s : List Char) : Option Assignment × List Char :=
  let s := dropExport s
  match name? s with
  | none => (none, restOfLine s)
  | some (name, after) =>
    match after.dropWhile isGap with
    | '=' :: after =>
      let after := after.dropWhile isGap
      match text? after with
      | some (text, after) => closeAssignment name (some text) after
      | none => (none, restOfLine after)
    | after => closeAssignment name none after

/-- The assignments of a file in their order. -/
def assignmentsIn (s : List Char) : List Assignment :=
  let s := s.dropWhile Text.isBlank
  if s.isEmpty then []
  else
    let (first, rest) := assignment s
    if rest.length < s.length then first.toList ++ assignmentsIn rest else first.toList
termination_by s.length
decreasing_by
  rename_i h
  exact Nat.lt_of_lt_of_le h (List.dropWhile_sublist _).length_le

/-! ## References -/

/-- The name and the default of a reference, written between braces, and what follows it. -/
def reference? (s : List Char) : Option (List Char × List Char × List Char) :=
  let isNamePart (c : Char) := c != '\x7d' && c != ':'
  let name := s.takeWhile isNamePart
  match s.dropWhile isNamePart with
  | '\x7d' :: rest => some (name, [], rest)
  | ':' :: '-' :: rest =>
    match rest.dropWhile (· != '\x7d') with
    | _ :: after => some (name, rest.takeWhile (· != '\x7d'), after)
    | [] => none
  | _ => none

/-- Puts the texts of variables in the place of references to them. The next `skipped` characters
belong to a reference that has been replaced. -/
def expandFrom (valueOf : String → Option String) : (skipped : Nat) → List Char → List Char
  | _, [] => []
  | skipped + 1, _ :: rest => expandFrom valueOf skipped rest
  | 0, '$' :: '\x7b' :: rest =>
    match reference? rest with
    | some (name, default, after) =>
      let text := (valueOf (String.ofList name)).getD (String.ofList default)
      text.toList ++ expandFrom valueOf (rest.length - after.length) rest
    | none => '$' :: '\x7b' :: expandFrom valueOf 0 rest
  | 0, c :: rest => c :: expandFrom valueOf 0 rest

def expand (valueOf : String → Option String) (text : String) : String :=
  String.ofList (expandFrom valueOf 0 text.toList)

/-- Gives a variable a text, in the place of the one that it has. -/
def assign (name : String) (text : Option String) : List Assignment → List Assignment
  | [] => [(name, text)]
  | (n, t) :: rest => if n == name then (n, text) :: rest else (n, t) :: assign name text rest

/-- The variables of a file. Texts refer to variables assigned before them, and to those of the
environment. -/
def ofFile (environment : List (String × String)) (file : String) : List Assignment :=
  (assignmentsIn (unifyLineEnds file.toList)).foldl
    (fun known (name, text) =>
      let valueOf (n : String) :=
        match known.lookup n with
        | some text => some (text.getD "")
        | none => environment.lookup n
      assign name (text.map (expand valueOf)) known)
    []

end SearchExpr.Variables
