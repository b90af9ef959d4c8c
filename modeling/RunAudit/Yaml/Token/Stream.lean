import RunAudit.Yaml.Token.Block
import RunAudit.Yaml.Token.Plain
import RunAudit.Yaml.Token.Quoted
import RunAudit.Yaml.Token.Tag

/-!
# The tokens of a text

Outside of brackets, collections are shown by columns: a scanner keeps the column of the innermost collection and
those around it. A key before a colon is only known as a key when the colon is read; for each depth of brackets
the scanner remembers the token that may turn out to be one, and then puts the key's own token before it. Such
a key stands on one line and takes at most 1024 characters.
-/

namespace RunAudit.Yaml

/-- A token that may turn out to begin a key: how many tokens precede it, where it begins, and whether nothing else
may stand there. -/
structure KeyCandidate where
  number : Nat
  mark : Mark
  required : Bool
  deriving DecidableEq, Repr

/-- The most characters that a key before a colon may take. -/
def maxKeyLength : Nat := 1024

/-- Whether a place is too far behind a candidate for it to be a key. -/
def KeyCandidate.isStale (k : KeyCandidate) (m : Mark) : Bool :=
  k.mark.line < m.line || k.mark.index + maxKeyLength < m.index

/-- What a scanner keeps between tokens. -/
structure Scanner where
  /-- How many brackets are open. -/
  flow : Nat
  keyAllowed : Bool
  /-- The column of the innermost block collection, or -1. -/
  indent : Int
  /-- The columns of the collections around it. -/
  outer : List Int
  /-- The candidates for keys at each depth of brackets, the innermost first. -/
  candidates : List (Option KeyCandidate)
  /-- The tokens found, the last first. -/
  tokens : List Token
  count : Nat

namespace Scanner

/-- Nothing found. -/
def start : Scanner := ⟨0, true, -1, [], [none], [], 0⟩

/-- Whether a bracket is open. -/
def inFlow (sc : Scanner) : Bool := sc.flow ≠ 0

/-- Adds a token. -/
def emit (sc : Scanner) (lexeme : Lexeme) (start stop : Mark) : Scanner :=
  { sc with tokens := ⟨lexeme, start, stop⟩ :: sc.tokens, count := sc.count + 1 }

/-- Puts a token before those found after a number of them. -/
def emitAt (sc : Scanner) (number : Nat) (lexeme : Lexeme) (m : Mark) : Scanner :=
  let (after, before) := sc.tokens.splitAt (sc.count - number)
  { sc with tokens := after ++ ⟨lexeme, m, m⟩ :: before, count := sc.count + 1 }

/-- Allows or forbids a key at the next token. -/
def allowKey (sc : Scanner) (allowed : Bool) : Scanner := { sc with keyAllowed := allowed }

/-- Replaces the innermost candidate. -/
def setCandidate (sc : Scanner) (k : Option KeyCandidate) : Scanner :=
  { sc with candidates := k :: sc.candidates.drop 1 }

/-- Gives up the innermost candidate, unless it has to be a key. -/
def dropCandidate? (sc : Scanner) : Option Scanner :=
  match sc.candidates.head?.join with
  | some k => if k.required then none else some (sc.setCandidate none)
  | none => some sc

/-- Remembers that the next token may begin a key, if one is allowed. -/
def saveCandidate? (sc : Scanner) (m : Mark) : Option Scanner :=
  if sc.keyAllowed then
    sc.dropCandidate?.map (·.setCandidate (some ⟨sc.count, m, !sc.inFlow && sc.indent = m.column⟩))
  else some sc

/-- Begins a block collection at a column further in, with a token put after a number of them. -/
def enterAt (sc : Scanner) (number column : Nat) (lexeme : Lexeme) (m : Mark) : Scanner :=
  if sc.inFlow || (column : Int) ≤ sc.indent then sc
  else { sc.emitAt number lexeme m with indent := column, outer := sc.indent :: sc.outer }

/-- Begins a block collection at a place, if that is further in. -/
def enter (sc : Scanner) (lexeme : Lexeme) (m : Mark) : Scanner := sc.enterAt sc.count m.column lexeme m

/-- Ends the collections from the innermost on that are further in than a column. -/
def leaveTo (column : Int) (m : Mark) (sc : Scanner) : (outer : List Int) → Scanner
  | [] => sc
  | next :: outer =>
    if column < sc.indent then leaveTo column m { sc.emit .blockEnd m m with indent := next, outer := outer } outer
    else sc

/-- Ends the block collections further in than a column. -/
def leave (sc : Scanner) (column : Int) (m : Mark) : Scanner :=
  if sc.inFlow then sc else leaveTo column m sc sc.outer

/-- Ends all block collections and gives up the candidate, before what belongs to no collection. -/
def leaveAll? (sc : Scanner) (m : Mark) : Option Scanner :=
  (sc.leave (-1) m).dropCandidate?.map (·.allowKey false)

end Scanner

/-- Passes over blanks, comments and line breaks: whether a key is allowed at the next token, and what is left
there. A tab is only blank where no key is allowed. Each line uses one unit of fuel. -/
def toToken (flow keyAllowed : Bool) (r : Rest) : (fuel : Nat) → Bool × Rest
  | 0 => (keyAllowed, r)
  | fuel + 1 =>
    let r := r.dropWhile fun c => c = ' ' || (c = '\t' && (flow || !keyAllowed))
    let r := if r.text.head? = some '#' then r.dropWhile fun c => !isBreak c else r
    if r.text.head?.any isBreak then toToken flow (keyAllowed || !flow) r.skipBreak fuel else (keyAllowed, r)

namespace Scanner

/-- What a scanner keeps and what is left, after a step. -/
abbrev Step := Option (Scanner × Rest)

/-- A mark of a document's start or end. -/
def documentMark (sc : Scanner) (lexeme : Lexeme) (r : Rest) : Step :=
  (sc.leaveAll? r.mark).map fun sc => (sc.emit lexeme r.mark (r.mark.past 3), r.past 3)

/-- A directive. -/
def directive (sc : Scanner) (r : Rest) : Step := do
  let sc ← sc.leaveAll? r.mark
  let (lexeme, rest) ← Tag.directive? (r.past 1)
  return (sc.emit lexeme r.mark rest.mark, rest)

/-- An opening bracket. -/
def openBracket (sc : Scanner) (lexeme : Lexeme) (r : Rest) : Step := do
  let sc ← sc.saveCandidate? r.mark
  let sc := { sc with candidates := none :: sc.candidates, flow := sc.flow + 1, keyAllowed := true }
  return (sc.emit lexeme r.mark r.mark.next, r.past 1)

/-- Leaves the innermost brackets, if there are any. -/
def leaveBracket (sc : Scanner) : Scanner :=
  if sc.inFlow then { sc with candidates := sc.candidates.drop 1, flow := sc.flow - 1 } else sc

/-- A closing bracket. -/
def closeBracket (sc : Scanner) (lexeme : Lexeme) (r : Rest) : Step := do
  let sc ← sc.dropCandidate?
  let sc := sc.leaveBracket.allowKey false
  return (sc.emit lexeme r.mark r.mark.next, r.past 1)

/-- A comma between brackets. -/
def comma (sc : Scanner) (r : Rest) : Step := do
  let sc ← sc.dropCandidate?
  return ((sc.allowKey true).emit .flowEntry r.mark r.mark.next, r.past 1)

/-- Begins a block collection where an indicator stands, if one may begin there. -/
def enterBlock? (sc : Scanner) (lexeme : Lexeme) (m : Mark) : Option Scanner :=
  if sc.inFlow then some sc else if sc.keyAllowed then some (sc.enter lexeme m) else none

/-- A dash before an entry. -/
def dash (sc : Scanner) (r : Rest) : Step := do
  let sc ← (← sc.enterBlock? .blockSequenceStart r.mark).dropCandidate?
  return ((sc.allowKey true).emit .blockEntry r.mark r.mark.next, r.past 1)

/-- A question mark before a key. -/
def question (sc : Scanner) (r : Rest) : Step := do
  let sc ← (← sc.enterBlock? .blockMappingStart r.mark).dropCandidate?
  return ((sc.allowKey !sc.inFlow).emit .key r.mark r.mark.next, r.past 1)

/-- Turns a candidate into a key, in a mapping that begins with it if none is there. -/
def keyBefore (sc : Scanner) (k : KeyCandidate) : Scanner :=
  (((sc.emitAt k.number .key k.mark).enterAt k.number k.mark.column .blockMappingStart k.mark).setCandidate
    none).allowKey false

/-- Makes the candidate before a colon a key, or takes the colon for that of an explicit or missing key. -/
def keyOfColon? (sc : Scanner) (m : Mark) : Option Scanner :=
  let bare := (sc.enterBlock? .blockMappingStart m).map fun sc => sc.allowKey !sc.inFlow
  match sc.candidates.head?.join with
  | some k => if !k.isStale m then some (sc.keyBefore k) else if k.required then none else bare
  | none => bare

/-- A colon before a value. -/
def colon (sc : Scanner) (r : Rest) : Step := do
  let sc ← sc.keyOfColon? r.mark
  return (sc.emit .value r.mark r.mark.next, r.past 1)

/-- An anchor or alias. -/
def anchor (sc : Scanner) (lexeme : String → Lexeme) (r : Rest) : Step := do
  let sc ← sc.saveCandidate? r.mark
  let (name, rest) ← Tag.anchorName? (r.past 1)
  return ((sc.allowKey false).emit (lexeme name) r.mark rest.mark, rest)

/-- A tag. -/
def tag (sc : Scanner) (r : Rest) : Step := do
  let sc ← sc.saveCandidate? r.mark
  let ((handle, suffix), rest) ← Tag.tag? sc.inFlow (r.past 1)
  return ((sc.allowKey false).emit (.tag handle suffix) r.mark rest.mark, rest)

/-- A block scalar. -/
def blockScalar (sc : Scanner) (style : ScalarStyle) (r : Rest) : Step := do
  let sc ← sc.dropCandidate?
  let result ← Block.read (style = .folded) sc.indent (r.past 1)
  return ((sc.allowKey true).emit (.scalar (String.ofList result.text) style) r.mark result.rest.mark, result.rest)

/-- A quoted scalar. -/
def quotedScalar (sc : Scanner) (quote : Char) (style : ScalarStyle) (r : Rest) : Step := do
  let sc ← sc.saveCandidate? r.mark
  let (text, rest) ← Quoted.read quote [] .none (r.text.drop 1) r.mark.next
  return ((sc.allowKey false).emit (.scalar (String.ofList text) style) r.mark rest.mark, rest)

/-- A plain scalar. -/
def plainScalar (sc : Scanner) (r : Rest) : Step := do
  let sc ← sc.saveCandidate? r.mark
  let result ← Plain.read sc.inFlow (sc.indent + 1) [] .none r.text r.mark
  return ((sc.allowKey result.broken).emit (.scalar (String.ofList result.text) .plain) r.mark result.rest.mark,
    result.rest)

/-- Whether a plain scalar may begin with a character that no indicator is. -/
def beginsPlain (c : Char) : Bool := !(isBlankOrBreak c || isIndicator c)

/-- The token at the front of a text that begins with a character. -/
def token (sc : Scanner) (r : Rest) (c : Char) (rest : List Char) : Step :=
  let parted := atWordEnd rest
  if r.mark.column = 0 && c = '%' then sc.directive r
  else if r.mark.column = 0 && startsWithDocumentMark r.text then
    sc.documentMark (if c = '-' then .documentStart else .documentEnd) r
  else
    match c with
    | '[' => sc.openBracket .flowSequenceStart r
    | '{' => sc.openBracket .flowMappingStart r
    | ']' => sc.closeBracket .flowSequenceEnd r
    | '}' => sc.closeBracket .flowMappingEnd r
    | ',' => sc.comma r
    | '-' => if parted then sc.dash r else sc.plainScalar r
    | '?' => if sc.inFlow || parted then sc.question r else sc.plainScalar r
    | ':' => if sc.inFlow || parted then sc.colon r else sc.plainScalar r
    | '*' => sc.anchor .alias r
    | '&' => sc.anchor .anchor r
    | '!' => sc.tag r
    | '|' => if sc.inFlow then none else sc.blockScalar .literal r
    | '>' => if sc.inFlow then none else sc.blockScalar .folded r
    | '\'' => sc.quotedScalar '\'' .single r
    | '"' => sc.quotedScalar '"' .double r
    | c => if beginsPlain c then sc.plainScalar r else none

/-- The tokens at the end of a text, which ends its last line. -/
def finish (sc : Scanner) (m : Mark) : Option (List Token) :=
  let m := if m.column = 0 then m else m.newLine 0
  (sc.leaveAll? m).map fun sc => (sc.emit .streamEnd m m).tokens.reverse

/-- The tokens of what is left; each uses one unit of fuel. -/
def run (sc : Scanner) (r : Rest) : (fuel : Nat) → Option (List Token)
  | 0 => none
  | fuel + 1 =>
    let (keyAllowed, r) := toToken sc.inFlow sc.keyAllowed r (fuel + 1)
    let sc := (sc.allowKey keyAllowed).leave r.mark.column r.mark
    match r.text with
    | [] => sc.finish r.mark
    | c :: rest =>
      match sc.token r c rest with
      | some (sc, r) => sc.run r fuel
      | none => none

end Scanner

/-- A mark of the order of octets, which does not count at the start of a text. -/
def byteOrderMark : Char := '\ufeff'

/-- The tokens of a text, if it is made of them. -/
def tokens? (text : List Char) : Option (List Token) :=
  let text := if text.head? = some byteOrderMark then text.drop 1 else text
  if !text.all isAllowed then none
  else
    let r : Rest := ⟨text, .start⟩
    Scanner.start.run (if text.head? = some byteOrderMark then r.past 1 else r) (text.length + 2)

end RunAudit.Yaml
