import Sluice.Pattern.Basic
import Sluice.Text.Basic

/-!
# Reading patterns

The grammar of patterns: literals, the dot, classes with ranges, nesting and set
operations, groups with flags or names, alternation, anchors and word boundaries, and
quantifiers. There is no look-around and there are no back references. The recursion is
bounded by the length of the text, of which every step takes something away.
-/
namespace Sluice.Pattern

open Sluice.Text

/-- What the flags of a pattern change. -/
structure Flags where
  anyCase : Bool := false
  multiLine : Bool := false
  dotAll : Bool := false
  deriving DecidableEq, Repr

/-- Sets one flag; none for a letter that is no flag. The flags for laziness and for
Unicode change nothing here. -/
def Flags.set (f : Flags) (letter : Char) (on : Bool) : Option Flags :=
  match letter with
  | 'i' => some { f with anyCase := on }
  | 'm' => some { f with multiLine := on }
  | 's' => some { f with dotAll := on }
  | 'U' => some f
  | 'u' => if on then some f else none
  | _ => none

/-- Reads flags up to a colon or a closing parenthesis: the flags, the delimiter, and the
rest. No flag may come twice, and a minus must have a flag after it. -/
def readFlags (f : Flags) (seen : List Char) (on dangling : Bool) :
    List Char → Option (Flags × Char × List Char)
  | [] => none
  | c :: rest =>
      if c = ':' ∨ c = ')' then
        if dangling then none else some (f, c, rest)
      else if seen.contains c then none
      else if c = '-' then readFlags f (c :: seen) false true rest
      else match f.set c on with
        | some f => readFlags f (c :: seen) on false rest
        | none => none

/-- A character of a group name, which may not begin with a digit or with punctuation
other than the underscore. -/
def isGroupNameChar (first : Bool) (c : Char) : Bool :=
  if first then c == '_' || isAlphabetic c
  else c == '_' || c == '.' || c == '[' || c == ']' || isAlphanumeric c

/-- Reads a group name and its closing angle bracket. -/
def readGroupName (cs : List Char) : Option (List Char × List Char) :=
  match cutAt '>' cs with
  | some (c :: name, rest) =>
      if isGroupNameChar true c && name.all (isGroupNameChar false) then some (c :: name, rest)
      else none
  | _ => none

/-- How a group opens. -/
inductive Opening where
  /-- A group, with the flags inside it and its name if it has one. -/
  | group (inside : Flags) (name : Option (List Char))
  /-- Flags for the rest of the group around. -/
  | setFlags (f : Flags)

/-- Reads what follows an opening parenthesis. -/
def readOpening (f : Flags) : List Char → Option (Opening × List Char)
  | '?' :: 'P' :: '<' :: rest => (readGroupName rest).map fun (n, rest) => (.group f (some n), rest)
  | '?' :: '<' :: '=' :: _ => none
  | '?' :: '<' :: '!' :: _ => none
  | '?' :: '<' :: rest => (readGroupName rest).map fun (n, rest) => (.group f (some n), rest)
  | '?' :: ')' :: _ => none
  | '?' :: rest =>
      match readFlags f [] true false rest with
      | some (f, ':', rest) => some (.group f none, rest)
      | some (f, _, rest) => some (.setFlags f, rest)
      | none => none
  | cs => some (.group f none, cs)

/-- The number written by hexadecimal digits. -/
def hexNumber (cs : List Char) : Option Nat :=
  cs.foldl (fun n c => do
    let n ← n
    let d ← if isAsciiDigit c then some (c.toNat - 48)
      else if 'a' ≤ c ∧ c ≤ 'f' then some (c.toNat - 87)
      else if 'A' ≤ c ∧ c ≤ 'F' then some (c.toNat - 55)
      else none
    return n * 16 + d) (some 0)

/-- The character with a code, if there is one. -/
def charOf (n : Nat) : Option Char :=
  if h : n.isValidChar then some (Char.ofNatAux n h) else none

/-- Reads a code of a fixed number of hexadecimal digits, or of any number in braces. -/
def readHex (width : Nat) : List Char → Option (Char × List Char)
  | '\x7b' :: rest =>
      match cutAt '\x7d' rest with
      | some (digits, rest) =>
          if digits.isEmpty then none
          else (hexNumber digits >>= charOf).map fun c => (c, rest)
      | none => none
  | cs =>
      if cs.length < width then none
      else (hexNumber (cs.take width) >>= charOf).map fun c => (c, cs.drop width)

/-- What an escape stands for. -/
inductive Escape where
  | char (c : Char)
  | set (s : CharSet)
  | look (l : Look)

/-- The ASCII characters that stand for themselves after a backslash. -/
def isEscapable (c : Char) : Bool :=
  c.toNat < 128 && !c.isAlphanum && c != '<' && c != '>'

/-- Reads what follows a backslash. -/
def readEscape : List Char → Option (Escape × List Char)
  | [] => none
  | c :: rest =>
      match c with
      | 'd' => some (.set .decimal, rest)
      | 'D' => some (.set (.compl .decimal), rest)
      | 's' => some (.set .blank, rest)
      | 'S' => some (.set (.compl .blank), rest)
      | 'w' => some (.set .word, rest)
      | 'W' => some (.set (.compl .word), rest)
      | 'x' => (readHex 2 rest).map fun (c, rest) => (.char c, rest)
      | 'u' => (readHex 4 rest).map fun (c, rest) => (.char c, rest)
      | 'U' => (readHex 8 rest).map fun (c, rest) => (.char c, rest)
      | 'a' => some (.char '\x07', rest)
      | 'f' => some (.char '\x0c', rest)
      | 't' => some (.char '\t', rest)
      | 'n' => some (.char '\n', rest)
      | 'r' => some (.char '\r', rest)
      | 'v' => some (.char '\x0b', rest)
      | 'A' => some (.look .textStart, rest)
      | 'z' => some (.look .textEnd, rest)
      | 'b' => some (.look .wordBoundary, rest)
      | 'B' => some (.look .notWordBoundary, rest)
      | '<' => some (.look .wordStart, rest)
      | '>' => some (.look .wordEnd, rest)
      | c => if isEscapable c then some (.char c, rest) else none

/-- The ranges of the named classes, which are all ASCII. -/
def namedRanges (name : String) : Option (List (Char × Char)) :=
  match name with
  | "alnum" => some [('0', '9'), ('A', 'Z'), ('a', 'z')]
  | "alpha" => some [('A', 'Z'), ('a', 'z')]
  | "ascii" => some [('\x00', '\x7f')]
  | "blank" => some [('\t', '\t'), (' ', ' ')]
  | "cntrl" => some [('\x00', '\x1f'), ('\x7f', '\x7f')]
  | "digit" => some [('0', '9')]
  | "graph" => some [('!', '~')]
  | "lower" => some [('a', 'z')]
  | "print" => some [(' ', '~')]
  | "punct" => some [('!', '/'), (':', '@'), ('[', '\x60'), ('\x7b', '~')]
  | "space" => some [('\t', '\t'), ('\n', '\n'), ('\x0b', '\x0b'), ('\x0c', '\x0c'), ('\r', '\r'),
      (' ', ' ')]
  | "upper" => some [('A', 'Z')]
  | "word" => some [('0', '9'), ('A', 'Z'), ('a', 'z'), ('_', '_')]
  | "xdigit" => some [('0', '9'), ('A', 'F'), ('a', 'f')]
  | _ => none

/-- Reads a named class such as `[:digit:]` or `[:^digit:]`, from its opening bracket. -/
def readNamed (anyCase : Bool) : List Char → Option (CharSet × List Char)
  | '[' :: ':' :: rest => do
      let (negated, rest) := match rest with
        | '^' :: rest => (true, rest)
        | _ => (false, rest)
      let (name, rest) ← cutAt ':' rest
      let ranges ← namedRanges (String.ofList name)
      match rest with
      | ']' :: rest =>
          let s := ranges.foldl (fun s (lo, hi) => CharSet.union s (.range lo hi anyCase)) .none
          some (if negated then .compl s else s, rest)
      | _ => none
  | _ => none

/-- A member of a class: a character, or a set. -/
inductive Member where
  | char (c : Char)
  | set (s : CharSet)

def Member.toSet (anyCase : Bool) : Member → CharSet
  | char c => .single c anyCase
  | set s => s

/-- Reads one member of a class. -/
def readMember : List Char → Option (Member × List Char)
  | '\\' :: rest =>
      match readEscape rest with
      | some (.char c, rest) => some (.char c, rest)
      | some (.set s, rest) => some (.set s, rest)
      | _ => none
  | c :: rest => some (.char c, rest)
  | [] => none

/-- Reads one member of a class, or a range of characters. -/
def readRange (anyCase : Bool) (cs : List Char) : Option (CharSet × List Char) :=
  match readMember cs with
  | some (first, '-' :: next :: rest) =>
      if next = ']' ∨ next = '-' then some (first.toSet anyCase, '-' :: next :: rest)
      else match first, readMember (next :: rest) with
        | .char lo, some (.char hi, rest) =>
            if lo ≤ hi then some (.range lo hi anyCase, rest) else none
        | _, _ => none
  | some (_, []) => none
  | some (first, rest) => some (first.toSet anyCase, rest)
  | none => none

/-- The operations between the sets of a class. -/
inductive SetOperation where
  | inter
  | diff
  | symmDiff

/-- What is on the left of the operand that is being read. -/
def combine (left : Option (CharSet × SetOperation)) (s : CharSet) : CharSet :=
  match left with
  | none => s
  | some (l, .inter) => .inter l s
  | some (l, .diff) => .diff l s
  | some (l, .symmDiff) => .symmDiff l s

/-- The minus signs at the start of a class stand for themselves. -/
def leadingDashes (anyCase : Bool) (s : CharSet) (any : Bool) :
    List Char → CharSet × Bool × List Char
  | '-' :: rest => leadingDashes anyCase (.union s (.single '-' anyCase)) true rest
  | rest => (s, any, rest)

/-- The start of a class after its opening bracket: whether it is negated, the members
that can only stand there, and the rest. -/
def classStart (anyCase : Bool) (cs : List Char) : Bool × CharSet × List Char :=
  let (negated, cs) := match cs with
    | '^' :: rest => (true, rest)
    | _ => (false, cs)
  let (s, any, cs) := leadingDashes anyCase .none false cs
  match cs with
  | ']' :: rest => if any then (negated, s, cs) else (negated, .union s (.single ']' anyCase), rest)
  | _ => (negated, s, cs)

/-- Reads the rest of a class up to the bracket that closes it. -/
def readClass (fuel : Nat) (anyCase negated : Bool) (left : Option (CharSet × SetOperation))
    (s : CharSet) (cs : List Char) : Option (CharSet × List Char) :=
  match fuel, cs with
  | 0, _ => none
  | _, [] => none
  | _ + 1, ']' :: rest =>
      let whole := combine left s
      some (if negated then .compl whole else whole, rest)
  | fuel + 1, '[' :: rest =>
      match readNamed anyCase ('[' :: rest) with
      | some (named, rest) => readClass fuel anyCase negated left (.union s named) rest
      | none =>
          let (innerNegated, start, rest) := classStart anyCase rest
          match readClass fuel anyCase innerNegated none start rest with
          | some (inner, rest) => readClass fuel anyCase negated left (.union s inner) rest
          | none => none
  | fuel + 1, '&' :: '&' :: rest =>
      readClass fuel anyCase negated (some (combine left s, .inter)) .none rest
  | fuel + 1, '-' :: '-' :: rest =>
      readClass fuel anyCase negated (some (combine left s, .diff)) .none rest
  | fuel + 1, '~' :: '~' :: rest =>
      readClass fuel anyCase negated (some (combine left s, .symmDiff)) .none rest
  | fuel + 1, cs =>
      match readRange anyCase cs with
      | some (member, rest) => readClass fuel anyCase negated left (.union s member) rest
      | none => none

/-- Reads digits between blanks, as they may stand in the braces of a repetition. -/
def readCount (cs : List Char) : Option Nat × List Char :=
  let cs := trimStart cs
  let digits := cs.takeWhile isAsciiDigit
  let rest := trimStart (cs.dropWhile isAsciiDigit)
  (if digits.isEmpty || digitsValue digits ≥ Nat.pow 2 32 then none else some (digitsValue digits), rest)

/-- Reads the bounds of a repetition after its opening brace. -/
def readBounds (cs : List Char) : Option (Nat × Option Nat × List Char) :=
  match readCount cs with
  | (some least, '\x7d' :: rest) => some (least, some least, rest)
  | (some least, ',' :: '\x7d' :: rest) => some (least, none, rest)
  | (some least, ',' :: rest) =>
      match readCount rest with
      | (some most, '\x7d' :: rest) => if least ≤ most then some (least, some most, rest) else none
      | _ => none
  | _ => none

/-- Drops the mark of a lazy quantifier. -/
def dropLazy : List Char → List Char
  | '?' :: rest => rest
  | cs => cs

/-- What has been read of a group: the finished part, and the last piece, to which a
quantifier would apply. -/
structure Unfinished where
  done : Pattern := .empty
  last : Option Pattern := none

/-- All of it. -/
def Unfinished.close (p : Unfinished) : Pattern :=
  match p.last with
  | some q => .seq p.done q
  | none => p.done

/-- One more piece. -/
def Unfinished.push (p : Unfinished) (q : Pattern) : Unfinished :=
  ⟨p.close, some q⟩

/-- A piece of one character. -/
def literal (f : Flags) (c : Char) : Pattern :=
  .set (.single c f.anyCase)

def Escape.toPattern (f : Flags) : Escape → Pattern
  | char c => literal f c
  | set s => .set s
  | look l => .look l

/-- Reads a group up to its end: a closing parenthesis, which is left, or the end of the
text. `names` are the group names used so far. -/
def readBody (fuel : Nat) (f : Flags) (names : List (List Char)) (p : Unfinished) (cs : List Char) :
    Option (Pattern × List (List Char) × List Char) :=
  match fuel, cs with
  | 0, _ => none
  | _, [] => some (p.close, names, [])
  | fuel + 1, c :: rest =>
      let quantified (least : Nat) (most : Option Nat) (rest : List Char) :=
        match p.last with
        | some q =>
            readBody fuel f names { p with last := some (.times q least most) } (dropLazy rest)
        | none => none
      match c with
      | ')' => some (p.close, names, ')' :: rest)
      | '|' =>
          match readBody fuel f names {} rest with
          | some (q, names, rest) => some (.alt p.close q, names, rest)
          | none => none
      | '(' =>
          match readOpening f rest with
          | some (.setFlags f, rest) => readBody fuel f names { done := p.close } rest
          | some (.group inside name, rest) =>
              if name.any names.contains then none
              else match readBody fuel inside (name.toList ++ names) {} rest with
                | some (q, names, ')' :: rest) => readBody fuel f names (p.push q) rest
                | _ => none
          | none => none
      | '[' =>
          let (negated, start, rest) := classStart f.anyCase rest
          match readClass fuel f.anyCase negated none start rest with
          | some (s, rest) => readBody fuel f names (p.push (.set s)) rest
          | none => none
      | '*' => quantified 0 none rest
      | '+' => quantified 1 none rest
      | '?' => quantified 0 (some 1) rest
      | '\x7b' =>
          match readBounds rest with
          | some (least, most, rest) => quantified least most rest
          | none => none
      | '\\' =>
          match readEscape rest with
          | some (e, rest) => readBody fuel f names (p.push (e.toPattern f)) rest
          | none => none
      | '.' => readBody fuel f names (p.push (.set (if f.dotAll then .all else .notNewline))) rest
      | '^' => readBody fuel f names (p.push (.look (if f.multiLine then .lineStart else .textStart))) rest
      | '$' => readBody fuel f names (p.push (.look (if f.multiLine then .lineEnd else .textEnd))) rest
      | c => readBody fuel f names (p.push (literal f c)) rest

/-- Reads a pattern. -/
def read? (cs : List Char) : Option Pattern :=
  match readBody (2 * cs.length + 2) {} [] {} cs with
  | some (p, _, []) => some p
  | _ => none

end Sluice.Pattern
