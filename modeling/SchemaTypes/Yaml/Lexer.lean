import SchemaTypes.Yaml.Token
import SchemaTypes.Yaml.PlainScalar
import SchemaTypes.Yaml.QuotedScalar
import SchemaTypes.Yaml.BlockScalar

/-! # From text to tokens

A key is recognised only by the colon behind it. Wherever a key may begin, the lexer notes the place
as a candidate, one for every level of brackets; a colon on the same line, at most 1024 characters
on, turns the candidate into a key, and a deeper column opens a block in front of it. Blocks are
closed when a token stands left of them. Inside brackets and braces indentation has no meaning.
-/

namespace SchemaTypes.Yaml

structure Candidate where
  /-- The number of tokens in front of it. -/
  place : Nat
  /-- Whether nothing but a key can stand there. -/
  required : Bool
  line : Nat
  column : Nat
  index : Nat

structure Lexer where
  cursor : Cursor
  /-- More than the number of characters of the text, which bounds every loop. -/
  limit : Nat
  tokens : Array Token := #[]
  /-- The column of the innermost block, -1 outside of any block. -/
  indent : Int := -1
  /-- The columns of the blocks around it. -/
  outer : List Int := []
  /-- Whether a key may begin at the next token. -/
  keyAllowed : Bool := true
  candidate : Option Candidate := none
  /-- The candidates of the levels of brackets around this one. -/
  outerCandidates : List (Option Candidate) := []

namespace Lexer

def inFlow (lexer : Lexer) : Bool := !lexer.outerCandidates.isEmpty

def push (token : Token) (lexer : Lexer) : Lexer :=
  { lexer with tokens := lexer.tokens.push token }

def pushMark (token : Token) (n : Nat) (lexer : Lexer) : Lexer :=
  { lexer with tokens := lexer.tokens.push token, cursor := lexer.cursor.skip n }

def allowKey (keyAllowed : Bool) (lexer : Lexer) : Lexer := { lexer with keyAllowed := keyAllowed }

/-! ## Candidates -/

/-- Give up the candidate of this level; an error if a key has to stand there. -/
def dropCandidate (lexer : Lexer) : Option Lexer :=
  match lexer.candidate with
  | some candidate => if candidate.required then none else some { lexer with candidate := none }
  | none => some lexer

def noteCandidate (lexer : Lexer) : Option Lexer :=
  if lexer.keyAllowed then
    lexer.dropCandidate.map fun lexer =>
      let cursor := lexer.cursor
      { lexer with
        candidate := some {
          place := lexer.tokens.size
          required := !lexer.inFlow && lexer.indent == cursor.column
          line := cursor.line, column := cursor.column, index := cursor.index } }
  else some lexer

/-- The greatest number of characters between the start of a key and its colon. -/
def longestKey : Nat := 1024

/-- Give up a candidate that is out of reach of the place; an error if a key has to stand there. -/
def refresh (cursor : Cursor) : Option Candidate → Option (Option Candidate)
  | none => some none
  | some candidate =>
    if candidate.line < cursor.line || candidate.index + longestKey < cursor.index then
      if candidate.required then none else some none
    else some (some candidate)

def refreshAll (lexer : Lexer) : Option Lexer := do
  let candidate ← refresh lexer.cursor lexer.candidate
  let outer ← lexer.outerCandidates.mapM (refresh lexer.cursor)
  some { lexer with candidate := candidate, outerCandidates := outer }

/-! ## Blocks -/

/-- Open a block at a column right of the innermost one, with a token at `place`. -/
def openBlock (column : Nat) (place : Nat) (token : Token) (lexer : Lexer) : Lexer :=
  if !lexer.inFlow && lexer.indent < column then
    { lexer with
      indent := column, outer := lexer.indent :: lexer.outer
      tokens := lexer.tokens.insertIdxIfInBounds place token }
  else lexer

def closeBlocksFrom (column : Int) : Int → List Int → Array Token → Int × List Int × Array Token
  | indent, [], tokens => (indent, [], tokens)
  | indent, next :: outer, tokens =>
    if column < indent then closeBlocksFrom column next outer (tokens.push .blockEnd)
    else (indent, next :: outer, tokens)

def closeBlocks (column : Int) (lexer : Lexer) : Lexer :=
  if lexer.inFlow then lexer else
    let (indent, outer, tokens) := closeBlocksFrom column lexer.indent lexer.outer lexer.tokens
    { lexer with indent := indent, outer := outer, tokens := tokens }

/-! ## Tokens -/

/-- Pass white space, comments and line breaks. Tabs are no white space where a key may begin. A
byte order mark in front of the text is passed as a character that takes a column. -/
def skipToToken : Nat → Lexer → Lexer
  | 0, lexer => lexer
  | fuel + 1, lexer =>
    let cursor := lexer.cursor
    let cursor := if cursor.index == 0 && cursor.sees '\ufeff' then cursor.skip 1 else cursor
    let tabs := lexer.inFlow || !lexer.keyAllowed
    let cursor := (cursor.skipWhile fun c => c == ' ' || (tabs && c == '\t')).skipComment
    if !cursor.rest.isEmpty && endsLine cursor.rest then
      skipToToken fuel { lexer with
        cursor := cursor.skipBreak, keyAllowed := lexer.keyAllowed || !lexer.inFlow }
    else { lexer with cursor := cursor }

def finish (lexer : Lexer) : Option Lexer := (lexer.closeBlocks (-1)).dropCandidate

def directive (lexer : Lexer) : Option Lexer := do
  let lexer ← (lexer.closeBlocks (-1)).dropCandidate
  let (directive, cursor) ← readDirective lexer.cursor
  some (({ lexer with cursor := cursor }.push (.directive directive)).allowKey false)

def documentMark (token : Token) (lexer : Lexer) : Option Lexer := do
  let lexer ← (lexer.closeBlocks (-1)).dropCandidate
  some ((lexer.allowKey false).pushMark token 3)

def openFlow (token : Token) (lexer : Lexer) : Option Lexer := do
  let lexer ← lexer.noteCandidate
  let lexer := { lexer with
    candidate := none, outerCandidates := lexer.candidate :: lexer.outerCandidates }
  some ((lexer.allowKey true).pushMark token 1)

def closeFlow (token : Token) (lexer : Lexer) : Option Lexer := do
  let lexer ← lexer.dropCandidate
  let lexer := match lexer.outerCandidates with
    | candidate :: outer => { lexer with candidate := candidate, outerCandidates := outer }
    | [] => lexer
  some ((lexer.allowKey false).pushMark token 1)

def flowEntry (lexer : Lexer) : Option Lexer := do
  let lexer ← lexer.dropCandidate
  some ((lexer.allowKey true).pushMark .flowEntry 1)

/-- Open a block for a mark at this place, which outside of brackets must be one where a key may
begin. -/
def openForMark (token : Token) (lexer : Lexer) : Option Lexer :=
  if lexer.inFlow then some lexer
  else if lexer.keyAllowed then
    some (lexer.openBlock lexer.cursor.column lexer.tokens.size token)
  else none

def blockEntry (lexer : Lexer) : Option Lexer := do
  let lexer ← lexer.openForMark .blockSequenceStart
  let lexer ← lexer.dropCandidate
  some ((lexer.allowKey true).pushMark .blockEntry 1)

def key (lexer : Lexer) : Option Lexer := do
  let lexer ← lexer.openForMark .blockMappingStart
  let lexer ← lexer.dropCandidate
  some ((lexer.allowKey !lexer.inFlow).pushMark .key 1)

/-- A colon: the candidate becomes a key, or the key was marked before. -/
def value (lexer : Lexer) : Option Lexer :=
  match lexer.candidate with
  | some candidate =>
    let lexer := { lexer with
      tokens := lexer.tokens.insertIdxIfInBounds candidate.place .key, candidate := none }
    let lexer := lexer.openBlock candidate.column candidate.place .blockMappingStart
    some ((lexer.allowKey false).pushMark .value 1)
  | none =>
    (lexer.openForMark .blockMappingStart).map fun lexer =>
      (lexer.allowKey !lexer.inFlow).pushMark .value 1

/-- An anchor or an alias after its mark: a name that is followed by white space or punctuation. -/
def name (token : String → Token) (lexer : Lexer) : Option Lexer := do
  let lexer ← lexer.noteCandidate
  let cursor := lexer.cursor.skip 1
  let name := cursor.rest.takeWhile isNameChar
  let cursor := cursor.skip name.length
  let ended := match cursor.rest with
    | [] => true
    | c :: _ => endsWord [c] || ['?', ':', ',', ']', '}', '%', '@', '\u0060'].contains c
  if name.isEmpty || !ended then none
  else some (({ lexer with cursor := cursor }.push (token (String.ofList name))).allowKey false)

def tag (lexer : Lexer) : Option Lexer := do
  let lexer ← lexer.noteCandidate
  let (tag, cursor) ← readTag lexer.inFlow lexer.cursor
  some (({ lexer with cursor := cursor }.push (.tag tag)).allowKey false)

def block (literal : Bool) (lexer : Lexer) : Option Lexer := do
  let lexer ← lexer.dropCandidate
  let (text, cursor) ← blockScalar literal lexer.indent lexer.limit (lexer.cursor.skip 1)
  some (({ lexer with cursor := cursor }.push (.scalar (String.ofList text) false)).allowKey true)

def quoted (quote : Char) (lexer : Lexer) : Option Lexer := do
  let lexer ← lexer.noteCandidate
  let cursor := lexer.cursor.skip 1
  let (text, cursor) ← quotedScalar quote lexer.limit [] cursor
  some (({ lexer with cursor := cursor }.push (.scalar (String.ofList text) false)).allowKey false)

/-- A plain scalar, after which a key may begin if a line has ended. -/
def plain (lexer : Lexer) : Option Lexer := do
  let lexer ← lexer.noteCandidate
  let (text, lineEnded, cursor) ←
    plainScalar lexer.inFlow (lexer.indent + 1) lexer.limit [] {} lexer.cursor
  some (({ lexer with cursor := cursor }.push (.scalar (String.ofList text) true)).allowKey
    lineEnded)

/-- The characters that no plain scalar starts with, a few exceptions apart. -/
def isIndicator (c : Char) : Bool :=
  ['-', '?', ':', ',', '[', ']', '{', '}', '#', '&', '*', '!', '|', '>', '\'', '"', '%', '@',
    '\u0060'].contains c

/-- Whether a plain scalar starts with `c` in front of `rest`. -/
def startsPlain (flow : Bool) (c : Char) (rest : List Char) : Bool :=
  !(isBlank c || isBreak c || isIndicator c) ||
    (c == '-' && !(match rest with | d :: _ => isBlank d | [] => false)) ||
    (!flow && (c == '?' || c == ':') && !endsWord rest)

def step (lexer : Lexer) : Option Lexer :=
  let cursor := lexer.cursor
  let flow := lexer.inFlow
  match cursor.rest with
  | [] => lexer.finish
  | c :: rest =>
    if cursor.column == 0 && c == '%' then lexer.directive
    else if cursor.atMark '-' then lexer.documentMark .documentStart
    else if cursor.atMark '.' then lexer.documentMark .documentEnd
    else if c == '[' then lexer.openFlow .flowSequenceStart
    else if c == '{' then lexer.openFlow .flowMappingStart
    else if c == ']' then lexer.closeFlow .flowSequenceEnd
    else if c == '}' then lexer.closeFlow .flowMappingEnd
    else if c == ',' then lexer.flowEntry
    else if c == '-' && endsWord rest then lexer.blockEntry
    else if c == '?' && (flow || endsWord rest) then lexer.key
    else if c == ':' && (flow || endsWord rest) then lexer.value
    else if c == '*' then lexer.name .alias
    else if c == '&' then lexer.name .anchor
    else if c == '!' then lexer.tag
    else if c == '|' && !flow then lexer.block true
    else if c == '>' && !flow then lexer.block false
    else if c == '\'' || c == '"' then lexer.quoted c
    else if startsPlain flow c rest then lexer.plain
    else none

def run : Nat → Lexer → Option (Array Token)
  | 0, _ => none
  | fuel + 1, lexer => do
    let lexer := skipToToken lexer.limit lexer
    let lexer ← lexer.refreshAll
    let lexer := lexer.closeBlocks lexer.cursor.column
    let ended := lexer.cursor.rest.isEmpty
    let lexer ← lexer.step
    if ended then some lexer.tokens else run fuel lexer

end Lexer

/-- The characters that may stand in a text at all. -/
def isPrintable (c : Char) : Bool :=
  let n := c.toNat
  n == 9 || n == 10 || n == 13 || (0x20 ≤ n && n ≤ 0x7E) || n == 0x85 || (0xA0 ≤ n && n ≤ 0xD7FF) ||
    (0xE000 ≤ n && n ≤ 0xFFFD) || 0x10000 ≤ n

/-- The tokens of a text; none if it is not well formed. -/
def tokens? (text : String) : Option (List Token) :=
  let cs := text.toList
  if cs.all isPrintable then
    let limit := cs.length + 2
    (Lexer.run limit { cursor := { rest := cs }, limit := limit }).map Array.toList
  else none

end SchemaTypes.Yaml
