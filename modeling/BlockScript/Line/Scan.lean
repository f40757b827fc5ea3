import BlockScript.Line.Kind

/-!
# The lines of a source

`Line.scan` walks over the characters of a source and gives its significant lines, followed by a mark of the end.
Blank lines and comments are left out, carriage returns are dropped, and so are byte order marks in front of a
line.
-/

namespace BlockScript.Line

/-- The byte order mark. -/
def byteOrderMark : Char :=
  '\uFEFF'

/-- Whether a trimmed line is a comment. -/
def isComment (t : Text) : Bool :=
  ['#'].isPrefixOf t || ['/', '/'].isPrefixOf t

/-- The line that the characters `raw` of line `number` make, unless they are blank or a comment.  Its column is
that of its first character that is no blank. -/
def ofRaw? (number : Nat) (raw : Text) : Option Line :=
  if Text.trim raw = [] || isComment (Text.trim raw) then none
  else some (ofText (Text.trim raw) number (1 + (raw.takeWhile isBlank).length))

/-- The mark of the end of a source. -/
def finish (number column : Nat) : Line :=
  ⟨.finish, [], number, column, none⟩

/-- The lines of the characters ahead.  `number` and `column` are those of the next character; `raw` holds, last
first, what line `number` has so far, and is `none` while only byte order marks have been seen. -/
def scanFrom (number column : Nat) (raw : Option Text) : Text → List Line
  | [] => (raw.bind (ofRaw? number ·.reverse)).toList ++ [finish number column]
  | c :: rest =>
    if c = '\n' then (raw.bind (ofRaw? number ·.reverse)).toList ++ scanFrom (number + 1) 1 none rest
    else if raw.isNone && c = byteOrderMark then scanFrom number (column + 1) none rest
    else if c = '\r' then scanFrom number (column + 1) (some (raw.getD [])) rest
    else scanFrom number (column + 1) (some (c :: raw.getD [])) rest

/-- The significant lines of a source and the mark of its end. -/
def scan (source : Text) : List Line :=
  scanFrom 1 1 none source

end BlockScript.Line
