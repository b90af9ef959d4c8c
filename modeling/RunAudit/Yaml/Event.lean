import RunAudit.Yaml.Token

/-!
# Events

The nodes of a document as events: an alias, a scalar, or the start and end of a collection. `Event.ofTokens?`
reads tokens with a stack of what is still to be read; a node that is left out is an empty scalar. A text holds
one document at most, and directives may come before it.
-/

namespace RunAudit.Yaml

/-- The properties of a node: the name it is anchored to, and its tag. -/
structure Properties where
  anchor : Option String
  tag : Option String
  deriving DecidableEq, Repr

/-- Neither anchor nor tag. -/
def Properties.none : Properties := ⟨.none, .none⟩

/-- An event at a place. -/
inductive Event where
  | alias (name : String) (mark : Mark)
  | scalar (properties : Properties) (text : String) (style : ScalarStyle) (mark : Mark)
  | sequenceStart (properties : Properties) (mark : Mark)
  | sequenceEnd
  | mappingStart (properties : Properties) (mark : Mark)
  | mappingEnd
  deriving DecidableEq, Repr

namespace Event

/-- What is still to be read. -/
inductive Goal where
  /-- A node. -/
  | node (block indentless : Bool)
  /-- The entries of a block sequence. -/
  | blockEntries
  /-- The entries of a sequence in the column of its key. -/
  | indentlessEntries
  /-- The keys of a block mapping, and their values. -/
  | blockKeys
  | blockValue
  /-- The entries of a sequence in brackets, the first of them or later ones. -/
  | flowEntries (first : Bool)
  /-- The key of a pair that is an entry of a sequence in brackets, its value and its end. -/
  | pairKey
  | pairValue
  | pairEnd
  /-- The keys of a mapping in braces, the first of them or later ones, and their values. -/
  | flowKeys (first : Bool)
  | flowValue
  /-- The value of a key without a colon. -/
  | missingValue
  deriving DecidableEq, Repr

/-- What stands for each handle of a tag. -/
abbrev Handles := List (String × String)

/-- The handles that need no directive. -/
def defaultHandles : Handles := [("!", "!"), ("!!", "tag:yaml.org,2002:")]

/-- A tag from its handle and suffix; an unknown handle has none. -/
def tagOf? (handles : Handles) (handle suffix : String) : Option String :=
  if handle = "" then some suffix
  else (handles.find? fun entry => entry.1 == handle).map fun entry => entry.2 ++ suffix

/-- Reads the properties of a node, in either order. -/
def properties? (handles : Handles) : List Token → Option (Properties × List Token)
  | ⟨.anchor a, _, _⟩ :: ⟨.tag h s, _, _⟩ :: rest => (tagOf? handles h s).map fun t => (⟨some a, some t⟩, rest)
  | ⟨.tag h s, _, _⟩ :: ⟨.anchor a, _, _⟩ :: rest => (tagOf? handles h s).map fun t => (⟨some a, some t⟩, rest)
  | ⟨.anchor a, _, _⟩ :: rest => some (⟨some a, none⟩, rest)
  | ⟨.tag h s, _, _⟩ :: rest => (tagOf? handles h s).map fun t => (⟨none, some t⟩, rest)
  | rest => some (.none, rest)

/-- An empty scalar at a place. -/
def empty (m : Mark) : Event := .scalar .none "" .plain m

/-- The properties of a scalar that is written out, for which the tag `!` is none. -/
def scalarProperties (p : Properties) : Properties := if p.tag = some "!" then { p with tag := none } else p

/-- A step: the goals that take the place of one, the events that are read, and the tokens that are left. -/
abbrev Step := Option (List Goal × List Event × List Token)

/-- Reads the front of a node that begins at a place. -/
def content (block indentless : Bool) (p : Properties) (start : Mark) (tokens : List Token) : Step :=
  match tokens with
  | [] => none
  | token :: rest =>
    let bare : Step :=
      if p = .none then none else some ([], [.scalar p "" .plain start], token :: rest)
    match token.lexeme with
    | .blockEntry =>
      if indentless then some ([.indentlessEntries], [.sequenceStart p start], token :: rest) else bare
    | .scalar text style => some ([], [.scalar (scalarProperties p) text style start], rest)
    | .flowSequenceStart => some ([.flowEntries true], [.sequenceStart p start], rest)
    | .flowMappingStart => some ([.flowKeys true], [.mappingStart p start], rest)
    | .blockSequenceStart => if block then some ([.blockEntries], [.sequenceStart p start], rest) else bare
    | .blockMappingStart => if block then some ([.blockKeys], [.mappingStart p start], rest) else bare
    | _ => bare

/-- Reads the front of a node. -/
def node (handles : Handles) (block indentless : Bool) (tokens : List Token) : Step :=
  match tokens with
  | [] => none
  | ⟨.alias name, start, _⟩ :: rest => some ([], [.alias name start], rest)
  | token :: rest =>
    match properties? handles (token :: rest) with
    | some (p, rest) => content block indentless p token.start rest
    | none => none

/-- A node where one may be left out: before some tokens there is an empty scalar. -/
def optionalNode (absent : Lexeme → Bool) (goal : Goal) (after : Goal) (m : Mark) (tokens : List Token) : Step :=
  match tokens with
  | [] => none
  | token :: _ => if absent token.lexeme then some ([after], [empty m], tokens) else some ([goal, after], [], tokens)

/-- Where the next token begins. -/
def here (tokens : List Token) : Mark := (tokens.head?.map Token.start).getD .start

/-- Tokens before which an entry of a block sequence is left out. -/
def endsBlockEntry (l : Lexeme) : Bool := l = .blockEntry || l = .blockEnd

/-- Tokens before which a key or value of a block mapping is left out. -/
def endsBlockPart (l : Lexeme) : Bool := l = .key || l = .value || l = .blockEnd

/-- Tokens before which an entry of a sequence in the column of its key is left out. -/
def endsIndentlessEntry (l : Lexeme) : Bool := l = .blockEntry || endsBlockPart l

/-- Tokens before which the value of a pair in brackets is left out. -/
def endsPairPart (l : Lexeme) : Bool := l = .flowEntry || l = .flowSequenceEnd

/-- Tokens before which a value in braces is left out. -/
def endsFlowPart (l : Lexeme) : Bool := l = .flowEntry || l = .flowMappingEnd

/-- Passes the comma before an entry that is not the first. -/
def afterComma? (first : Bool) (tokens : List Token) : Option (List Token) :=
  match first, tokens with
  | true, tokens => some tokens
  | false, ⟨.flowEntry, _, _⟩ :: rest => some rest
  | false, _ => none

/-- Entries of a sequence in brackets, after the comma. -/
def flowEntries (tokens : List Token) : Step :=
  match tokens with
  | [] => none
  | ⟨.key, start, _⟩ :: rest => some ([.pairKey, .flowEntries false], [.mappingStart .none start], rest)
  | ⟨.flowSequenceEnd, _, _⟩ :: rest => some ([], [.sequenceEnd], rest)
  | tokens => some ([.node false false, .flowEntries false], [], tokens)

/-- Keys of a mapping in braces, after the comma. -/
def flowKeys (tokens : List Token) : Step :=
  match tokens with
  | [] => none
  | ⟨.key, _, _⟩ :: rest =>
    optionalNode (fun l => l = .value || endsFlowPart l) (.node false false) .flowValue (here rest) rest
  | ⟨.flowMappingEnd, _, _⟩ :: rest => some ([], [.mappingEnd], rest)
  | tokens => some ([.node false false, .missingValue], [], tokens)

/-- The key of a pair in brackets. One that is left out takes the next token with it. -/
def pairKey (tokens : List Token) : Step :=
  match tokens with
  | [] => none
  | token :: rest =>
    if token.lexeme = .value || endsPairPart token.lexeme then some ([.pairValue], [empty token.stop], rest)
    else some ([.node false false, .pairValue], [], tokens)

/-- A step towards a goal. -/
def step (handles : Handles) (goal : Goal) (tokens : List Token) : Step :=
  match goal, tokens with
  | .node block indentless, tokens => node handles block indentless tokens
  | .blockEntries, ⟨.blockEntry, _, stop⟩ :: rest =>
    optionalNode endsBlockEntry (.node true false) .blockEntries stop rest
  | .blockEntries, ⟨.blockEnd, _, _⟩ :: rest => some ([], [.sequenceEnd], rest)
  | .blockEntries, _ => none
  | .indentlessEntries, ⟨.blockEntry, _, stop⟩ :: rest =>
    optionalNode endsIndentlessEntry (.node true false) .indentlessEntries stop rest
  | .indentlessEntries, tokens => some ([], [.sequenceEnd], tokens)
  | .blockKeys, ⟨.key, _, stop⟩ :: rest => optionalNode endsBlockPart (.node true true) .blockValue stop rest
  | .blockKeys, ⟨.blockEnd, _, _⟩ :: rest => some ([], [.mappingEnd], rest)
  | .blockKeys, _ => none
  | .blockValue, ⟨.value, _, stop⟩ :: rest => optionalNode endsBlockPart (.node true true) .blockKeys stop rest
  | .blockValue, tokens => some ([.blockKeys], [empty (here tokens)], tokens)
  | .flowEntries _, ⟨.flowSequenceEnd, _, _⟩ :: rest => some ([], [.sequenceEnd], rest)
  | .flowEntries first, tokens => (afterComma? first tokens).bind flowEntries
  | .pairKey, tokens => pairKey tokens
  | .pairValue, ⟨.value, _, _⟩ :: rest => optionalNode endsPairPart (.node false false) .pairEnd (here rest) rest
  | .pairValue, tokens => some ([.pairEnd], [empty (here tokens)], tokens)
  | .pairEnd, tokens => some ([], [.mappingEnd], tokens)
  | .flowKeys _, ⟨.flowMappingEnd, _, _⟩ :: rest => some ([], [.mappingEnd], rest)
  | .flowKeys first, tokens => (afterComma? first tokens).bind flowKeys
  | .flowValue, ⟨.value, _, _⟩ :: rest =>
    optionalNode endsFlowPart (.node false false) (.flowKeys false) (here rest) rest
  | .flowValue, tokens => some ([.flowKeys false], [empty (here tokens)], tokens)
  | .missingValue, tokens => some ([.flowKeys false], [empty (here tokens)], tokens)

/-- Reads what is left towards goals, after the events read (backwards); each step uses one unit of fuel. -/
def run (handles : Handles) (goals : List Goal) (read : List Event) (tokens : List Token) :
    (fuel : Nat) → Option (List Event × List Token)
  | 0 => none
  | fuel + 1 =>
    match goals with
    | [] => some (read.reverse, tokens)
    | goal :: goals =>
      match step handles goal tokens with
      | some (new, events, tokens) => run handles (new ++ goals) (events.reverse ++ read) tokens fuel
      | none => none

/-- Reads directives: the handles they define, after those found; the version may be told once. -/
def directives? (versioned : Bool) (handles : Handles) : List Token → Option (Bool × Handles × List Token)
  | ⟨.version major minor, _, _⟩ :: rest =>
    if versioned || major ≠ 1 || (minor ≠ 1 && minor ≠ 2) then none else directives? true handles rest
  | ⟨.tagHandle handle replacement, _, _⟩ :: rest =>
    if handles.any (·.1 == handle) then none else directives? versioned (handles ++ [(handle, replacement)]) rest
  | tokens => some (versioned, handles, tokens)

/-- Whether a document ends where it may begin. -/
def endsDocument (l : Lexeme) : Bool :=
  match l with
  | .version _ _ | .tagHandle _ _ | .documentStart | .documentEnd | .streamEnd => true
  | _ => false

/-- The goals at the start of a document, the events that are read there, and the tokens that are left. Without a
mark of its start, a document cannot be empty. -/
def document? (tokens : List Token) : Option (Handles × List Goal × List Event × List Token) := do
  let (versioned, handles, tokens) ← directives? false [] tokens
  let known := handles ++ defaultHandles
  match tokens with
  | ⟨.documentStart, _, _⟩ :: rest =>
    if (rest.head?.map Token.lexeme).any endsDocument then some (known, [], [empty (here rest)], rest)
    else some (known, [.node true false], [], rest)
  | tokens => if versioned || !handles.isEmpty then none else some (known, [.node true false], [], tokens)

/-- Whether only marks of a document's end are left. -/
def isOver : List Token → Bool
  | ⟨.documentEnd, _, _⟩ :: rest => isOver rest
  | ⟨.streamEnd, _, _⟩ :: _ => true
  | _ => false

/-- The events of the document that tokens make, none if they make no document at all. -/
def ofTokens? (tokens : List Token) : Option (List Event) :=
  match tokens with
  | ⟨.streamEnd, _, _⟩ :: _ => some []
  | tokens => do
    let (handles, goals, events, tokens) ← document? tokens
    let (events, tokens) ← run handles goals events tokens (5 * tokens.length + 5)
    if isOver tokens then some events else none

end Event

end RunAudit.Yaml
