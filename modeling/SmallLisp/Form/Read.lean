import SmallLisp.Form.Atom
import SmallLisp.Form.Error
import SmallLisp.Text.Quoted
import SmallLisp.Token.Scan

/-!
# `SmallLisp.Form.Read` — reading forms from tokens

Forms are read one token at a time. What has been read of the forms around the current place is kept in a
stack of frames, each of which waits for one form; a finished form is handed to the innermost frame. A token
is thus looked at once, an error is found at the first token that cannot be right, and reading can go on
after it with the next token.

## Contents
* **Unfinished forms** `Frame` and `Reading`.
* **One token.** `deliver` hands a form inwards, `Reading.feed` takes a token.
* **Many tokens.** `Form.next` reads one form, `Form.several` and `Form.ofTokens` read more.
* **Texts.** `Form.read`, `Form.readAll`.
-/

namespace SmallLisp

/-! ## Unfinished forms -/

/-- A form that has been begun and waits for a form inside it. -/
inductive Frame where
  /-- A list with the elements read so far, the latest first. -/
  | list (items : List Value)
  /-- A vector with the elements read so far, the latest first. -/
  | vector (items : List Value)
  /-- A map with the entries read so far, waiting for the value of a key. -/
  | value (entries : List (String × Value)) (key : String)
  | marked (mark : Mark)
  | deref
  /-- Metadata has been announced and comes next. -/
  | metadata
  /-- The form that the metadata belongs to comes next. -/
  | withMeta (metadata : Value)

/-- Where reading stands: before a form, or before a key of a map, inside some unfinished forms, the
innermost first. -/
inductive Reading where
  | form (outer : List Frame)
  | key (entries : List (String × Value)) (outer : List Frame)

/-- What becomes of a token: the form at hand goes on, or it is finished. -/
inductive Progress where
  | unfinished (next : Reading)
  | finished (form : Value)

/-! ## One token -/

/-- Hands a finished form to the innermost of the unfinished ones. -/
def deliver (v : Value) : List Frame → Progress
  | []                              => .finished v
  | .list items :: outer            => .unfinished (.form (.list (v :: items) :: outer))
  | .vector items :: outer          => .unfinished (.form (.vector (v :: items) :: outer))
  | .value entries key :: outer     => .unfinished (.key (Entries.insert key v entries) outer)
  | .marked m :: outer              => deliver (.marked m v) outer
  | .deref :: outer                 => deliver (.list [.symbol "deref", v]) outer
  | .metadata :: outer              => .unfinished (.form (.withMeta v :: outer))
  | .withMeta m :: outer            => deliver (.list [.symbol "with-meta", v, m]) outer

namespace Reading

/-- Before the first token of a form. -/
def start : Reading := .form []

/-- What must come when no further element can: a list, a vector or a map wants its closing bracket, anything
else a form. -/
def expected : Reading → Expected
  | form (.list _ :: _)   => .closing .round
  | form (.vector _ :: _) => .closing .square
  | form _                => .form
  | key _ _               => .closing .curly

/-- Takes a closing bracket, which must be the one that is expected. -/
def close (t : Token) : Reading → Bracket → Except ReadError Progress
  | form (.list items :: outer), .round    => .ok (deliver (.list items.reverse) outer)
  | form (.vector items :: outer), .square => .ok (deliver (.vector items.reverse) outer)
  | key entries outer, .curly              => .ok (deliver (.map entries) outer)
  | r, _                                   => .error (.unexpectedToken r.expected t)

/-- Takes a token that begins a form or is one. -/
def feedForm (outer : List Frame) (t : Token) : Except ReadError Progress :=
  match t.lexeme with
  | .opening .round  => .ok (.unfinished (.form (.list [] :: outer)))
  | .opening .square => .ok (.unfinished (.form (.vector [] :: outer)))
  | .opening .curly  => .ok (.unfinished (.key [] outer))
  | .closing b       => close t (.form outer) b
  | .mark m          => .ok (.unfinished (.form (.marked m :: outer)))
  | .deref           => .ok (.unfinished (.form (.deref :: outer)))
  | .withMeta        => .ok (.unfinished (.form (.metadata :: outer)))
  | .string raw      =>
    match Text.Quoted.decode? raw.toList with
    | some (content, _) => .ok (deliver (.string (String.ofList content)) outer)
    | none              => .error (.unterminatedString t.start)
  | .atom text       =>
    match Value.ofAtom? text with
    | some v => .ok (deliver v outer)
    | none   => .error (.invalidNumber text t.start)

/-- Takes a token where a map expects a key, which is an atom or a complete string and is kept as written. -/
def feedKey (entries : List (String × Value)) (outer : List Frame) (t : Token) : Except ReadError Progress :=
  match t.lexeme with
  | .closing b  => close t (.key entries outer) b
  | .string raw =>
    -- The key is the string as written; decoding it only shows that it is closed.
    if (Text.Quoted.decode? raw.toList).isSome then .ok (.unfinished (.form (.value entries raw :: outer)))
    else .error (.unterminatedString t.start)
  | .atom text  => .ok (.unfinished (.form (.value entries text :: outer)))
  | _           => .error (.invalidMapKey t)

/-- Takes one token. -/
def feed : Reading → Token → Except ReadError Progress
  | form outer, t        => feedForm outer t
  | key entries outer, t => feedKey entries outer t

end Reading

/-! ## Many tokens -/

namespace Form

/-- Reads on to the end of the form at hand; the second part is the tokens that are left. -/
def finish (r : Reading) : List Token → Except ReadError Value × List Token
  | []      => (.error (.prematureEnd r.expected), [])
  | t :: ts =>
    match r.feed t with
    | .error e                => (.error e, ts)
    | .ok (.finished v)       => (.ok v, ts)
    | .ok (.unfinished next)  => finish next ts

/-- Reads one form, or nothing where there are no tokens; the second part is the tokens that are left, after
an error too. -/
def next (ts : List Token) : Except ReadError (Option Value) × List Token :=
  if ts.isEmpty then (.ok none, [])
  else
    let (result, rest) := finish .start ts
    (result.map some, rest)

/-- Reads up to `limit` forms, going on after errors, and stops when nothing is left. -/
def several : Nat → List Token → List (Except ReadError (Option Value))
  | 0, _          => []
  | limit + 1, ts =>
    match next ts with
    | (.ok none, _)   => [.ok none]
    | (result, rest)  => result :: several limit rest

/-- Reads on to the end of the tokens: the form at hand, if one has been begun, and all forms after it. -/
def finishAll (r : Reading) : List Token → Except ReadError (List Value)
  | [] =>
    match r with
    | .form [] => .ok []
    | _        => .error (.prematureEnd r.expected)
  | t :: ts =>
    match r.feed t with
    | .error e                => .error e
    | .ok (.finished v)       => (finishAll .start ts).map (v :: ·)
    | .ok (.unfinished next)  => finishAll next ts

/-- Reads all forms, or gives the first error. -/
def ofTokens (ts : List Token) : Except ReadError (List Value) := finishAll .start ts

/-! ## Texts -/

/-- The first form of a text, or nothing where there is none; what follows the form does not matter. -/
def read (source : String) : Except ReadError (Option Value) := (next (Token.scan source)).1

/-- All forms of a text. -/
def readAll (source : String) : Except ReadError (List Value) := ofTokens (Token.scan source)

end Form

end SmallLisp
