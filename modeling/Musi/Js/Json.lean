import Musi.Js.Number
import Musi.Js.Record

namespace Musi.Js
set_option autoImplicit true

section
/-- A JSON value as JSON.parse builds it; an object lists its own properties in key order. -/
inductive Json (N : Type) where
  | null
  | bool (b : Bool)
  | num (n : N)
  | str (s : JsString)
  | arr (values : List (Json N))
  | obj (fields : List (JsString × Json N))

namespace Json

variable {N : Type}

mutual
protected def decEq [DecidableEq N] : (v w : Json N) → Decidable (v = w)
  | .null, .null => isTrue rfl
  | .bool a, .bool b => if h : a = b then isTrue (h ▸ rfl) else isFalse (by simpa using h)
  | .num a, .num b => if h : a = b then isTrue (h ▸ rfl) else isFalse (by simpa using h)
  | .str a, .str b => if h : a = b then isTrue (h ▸ rfl) else isFalse (by simpa using h)
  | .arr a, .arr b =>
    match Json.decEqList a b with
    | isTrue h => isTrue (h ▸ rfl)
    | isFalse h => isFalse (by simpa using h)
  | .obj a, .obj b =>
    match Json.decEqFields a b with
    | isTrue h => isTrue (h ▸ rfl)
    | isFalse h => isFalse (by simpa using h)
  | .null, .bool _ | .null, .num _ | .null, .str _ | .null, .arr _ | .null, .obj _ => isFalse nofun
  | .bool _, .null | .bool _, .num _ | .bool _, .str _ | .bool _, .arr _ | .bool _, .obj _ =>
    isFalse nofun
  | .num _, .null | .num _, .bool _ | .num _, .str _ | .num _, .arr _ | .num _, .obj _ =>
    isFalse nofun
  | .str _, .null | .str _, .bool _ | .str _, .num _ | .str _, .arr _ | .str _, .obj _ =>
    isFalse nofun
  | .arr _, .null | .arr _, .bool _ | .arr _, .num _ | .arr _, .str _ | .arr _, .obj _ =>
    isFalse nofun
  | .obj _, .null | .obj _, .bool _ | .obj _, .num _ | .obj _, .str _ | .obj _, .arr _ =>
    isFalse nofun
termination_by structural v => v

protected def decEqList [DecidableEq N] : (v w : List (Json N)) → Decidable (v = w)
  | [], [] => isTrue rfl
  | a :: s, b :: t =>
    match Json.decEq a b, Json.decEqList s t with
    | isTrue h, isTrue h' => isTrue (h ▸ h' ▸ rfl)
    | isFalse h, _ => isFalse (by simp [h])
    | _, isFalse h => isFalse (by simp [h])
  | [], _ :: _ | _ :: _, [] => isFalse nofun
termination_by structural v => v

protected def decEqFields [DecidableEq N] : (v w : List (JsString × Json N)) → Decidable (v = w)
  | [], [] => isTrue rfl
  | a :: s, b :: t =>
    match Json.decEqField a b, Json.decEqFields s t with
    | isTrue h, isTrue h' => isTrue (h ▸ h' ▸ rfl)
    | isFalse h, _ => isFalse (by simp [h])
    | _, isFalse h => isFalse (by simp [h])
  | [], _ :: _ | _ :: _, [] => isFalse nofun
termination_by structural v => v

protected def decEqField [DecidableEq N] : (v w : JsString × Json N) → Decidable (v = w)
  | (k, a), (l, b) =>
    match Json.decEq a b with
    | isTrue h => if h' : k = l then isTrue (h ▸ h' ▸ rfl) else isFalse (by simp [h'])
    | isFalse h => isFalse (by simp [h])
termination_by structural v => v
end

instance [DecidableEq N] : DecidableEq (Json N) := Json.decEq

/-- Induction over a JSON value, with the hypothesis for every member. -/
theorem induct {motive : Json N → Prop} (null : motive .null) (bool : ∀ b, motive (.bool b))
    (num : ∀ n, motive (.num n)) (str : ∀ s, motive (.str s))
    (arr : ∀ vs, (∀ v ∈ vs, motive v) → motive (.arr vs))
    (obj : ∀ es, (∀ e ∈ es, motive e.2) → motive (.obj es)) (v : Json N) : motive v :=
  @Json.rec N motive (fun vs => ∀ v ∈ vs, motive v) (fun es => ∀ e ∈ es, motive e.2)
    (fun e => motive e.2) null bool num str arr obj (by simp)
    (fun _ _ hv hvs => List.forall_mem_cons.2 ⟨hv, hvs⟩) (by simp)
    (fun _ _ he hes => List.forall_mem_cons.2 ⟨he, hes⟩) (fun _ _ h => h) v

/-- The own property of an object; undefined is `none`. -/
def field (v : Json N) (k : JsString) : Option (Json N) :=
  match v with
  | .obj fields => List.lookup k fields
  | _ => none

/-- `typeof value === "object" && value !== null && !Array.isArray(value)`, and its properties. -/
def asRecord : Json N → Option (Entries (Json N))
  | .obj fields => some fields
  | _ => none

end Json

/-- The hexadecimal digit of a number below sixteen. -/
def hexDigit (n : Nat) : UInt16 :=
  if n < 10 then UInt16.ofNat (0x30 + n) else UInt16.ofNat (0x57 + n)

/-- UnicodeEscape: a code unit as a backslash, a `u` and four lowercase hexadecimal digits. -/
def unicodeEscape (c : UInt16) : JsString :=
  [unit '\\', unit 'u', hexDigit (c.toNat / 4096), hexDigit (c.toNat / 256 % 16),
    hexDigit (c.toNat / 16 % 16), hexDigit (c.toNat % 16)]

/-- How QuoteJSONString writes one code unit that is not half of a surrogate pair. -/
def quoteUnit (c : UInt16) : JsString :=
  if c = 0x08 then js "\\b"
  else if c = 0x09 then js "\\t"
  else if c = 0x0A then js "\\n"
  else if c = 0x0C then js "\\f"
  else if c = 0x0D then js "\\r"
  else if c = unit '"' then js "\\\""
  else if c = unit '\\' then js "\\\\"
  else if c < 0x20 || isHighSurrogate c || isLowSurrogate c then unicodeEscape c
  else [c]

/-- The inside of a quoted string: surrogate pairs stay, lone surrogates are escaped. -/
def quoteUnits : JsString → JsString
  | [] => []
  | [a] => quoteUnit a
  | a :: b :: s =>
    if isHighSurrogate a && isLowSurrogate b then a :: b :: quoteUnits s
    else quoteUnit a ++ quoteUnits (b :: s)

/-- QuoteJSONString. -/
def quote (s : JsString) : JsString := unit '"' :: (quoteUnits s ++ [unit '"'])

/-- The line break and indentation that a gap puts before a member; nothing without a gap. -/
def lineBreak (gap indent : JsString) : JsString := if gap = [] then [] else unit '\n' :: indent

/-- A bracketed list of serialized members, as SerializeJSONObject and SerializeJSONArray lay
it out. -/
def bracketed (opening closing : UInt16) (gap indent : JsString) (members : List JsString) :
    JsString :=
  if members = [] then [opening, closing]
  else opening :: (lineBreak gap (indent ++ gap) ++
    join (unit ',' :: lineBreak gap (indent ++ gap)) members ++ lineBreak gap indent ++ [closing])

variable {N : Type} [JsNumber N]

def numberJson (n : N) : JsString := if JsNumber.isFinite n then JsNumber.toText n else js "null"

mutual
/-- SerializeJSONProperty with the gap and the indentation reached. -/
def render (gap indent : JsString) : Json N → JsString
  | .null => js "null"
  | .bool b => if b then js "true" else js "false"
  | .num n => numberJson n
  | .str s => quote s
  | .arr values => bracketed (unit '[') (unit ']') gap indent (renderList gap (indent ++ gap) values)
  | .obj fields =>
    bracketed (unit '{') (unit '}') gap indent (renderFields gap (indent ++ gap) fields)
termination_by structural v => v

def renderList (gap indent : JsString) : List (Json N) → List JsString
  | [] => []
  | v :: vs => render gap indent v :: renderList gap indent vs
termination_by structural v => v

def renderFields (gap indent : JsString) : List (JsString × Json N) → List JsString
  | [] => []
  | e :: es => renderField gap indent e :: renderFields gap indent es
termination_by structural v => v

def renderField (gap indent : JsString) : JsString × Json N → JsString
  | (k, v) => quote k ++ unit ':' :: ((if gap = [] then [] else [unit ' ']) ++ render gap indent v)
termination_by structural v => v
end

/-- JSON.stringify(value). -/
def stringify (v : Json N) : JsString := render [] [] v

/-- JSON.stringify(value, null, 2). -/
def stringifyIndented (v : Json N) : JsString := render (js "  ") [] v

end

section
def hexValue (c : UInt16) : Option Nat :=
  if isDigit c then some (c.toNat - 0x30)
  else if 0x61 ≤ c && c ≤ 0x66 then some (c.toNat - 0x57)
  else if 0x41 ≤ c && c ≤ 0x46 then some (c.toNat - 0x37)
  else none

/-- The code unit that a one-letter escape stands for. -/
def simpleEscape (c : UInt16) : Option UInt16 :=
  if c = unit '"' || c = unit '\\' || c = unit '/' then some c
  else if c = unit 'b' then some 0x08
  else if c = unit 'f' then some 0x0C
  else if c = unit 'n' then some 0x0A
  else if c = unit 'r' then some 0x0D
  else if c = unit 't' then some 0x09
  else none

/-- The value of a string literal after its opening quote, and the text that follows it. -/
def parseStringBody : JsString → Option (JsString × JsString)
  | [] => none
  | c :: s =>
    if c = unit '"' then some ([], s)
    else if c = unit '\\' then
      match s with
      | [] => none
      | e :: s' =>
        if e = unit 'u' then
          match s' with
          | h1 :: h2 :: h3 :: h4 :: t =>
            match hexValue h1, hexValue h2, hexValue h3, hexValue h4 with
            | some a, some b, some c, some d =>
              (parseStringBody t).map fun p =>
                (UInt16.ofNat (4096 * a + 256 * b + 16 * c + d) :: p.1, p.2)
            | _, _, _, _ => none
          | _ => none
        else
          match simpleEscape e with
          | some d => (parseStringBody s').map fun p => (d :: p.1, p.2)
          | none => none
    else if c < 0x20 then none
    else (parseStringBody s).map fun p => (c :: p.1, p.2)

/-- The white space that JSON allows between tokens. -/
def isJsonSpace (c : UInt16) : Bool := c = 0x20 || c = 0x09 || c = 0x0A || c = 0x0D

def skipSpace (s : JsString) : JsString := s.dropWhile isJsonSpace

/-- The text after a literal word. -/
def afterWord (word s : JsString) : Option JsString :=
  if startsWith s word then some (s.drop word.length) else none

variable {N : Type} [JsNumber N]

/-- A literal word or a numeral at the front of a text. -/
def parseScalar (s : JsString) : Option (Json N × JsString) :=
  match afterWord (js "null") s, afterWord (js "true") s, afterWord (js "false") s with
  | some rest, _, _ => some (.null, rest)
  | _, some rest, _ => some (.bool true, rest)
  | _, _, some rest => some (.bool false, rest)
  | none, none, none =>
    let numeral := s.takeWhile isNumberUnit
    if isNumeral numeral then some (.num (JsNumber.ofText numeral), s.dropWhile isNumberUnit)
    else none

/-- An object keeps the last value of a repeated name, and lists its names in key order. -/
def objectOf (fields : Entries (Json N)) : Json N := .obj (Record.fromEntries fields).entries

/-- The items of a non-empty bracketed list up to its closing bracket, and the text after it.
Every round consumes text, so the length of the text bounds the rounds. -/
def parseSequence {α : Type} (item : JsString → Option (α × JsString)) (closing : UInt16) :
    Nat → JsString → Option (List α × JsString)
  | 0, _ => none
  | rounds + 1, s =>
    match item s with
    | none => none
    | some (v, rest) =>
      match skipSpace rest with
      | [] => none
      | c :: rest =>
        if c = closing then some ([v], rest)
        else if c = unit ',' then
          (parseSequence item closing rounds rest).map fun p => (v :: p.1, p.2)
        else none

/-- The inside of a bracketed list after its opening bracket. -/
def parseBracketed {α : Type} (item : JsString → Option (α × JsString)) (closing : UInt16)
    (s : JsString) : Option (List α × JsString) :=
  if (skipSpace s).head? = some closing then some ([], (skipSpace s).tail)
  else parseSequence item closing s.length s

/-- One name and value of an object. -/
def parseMember (value : JsString → Option (Json N × JsString)) (s : JsString) :
    Option ((JsString × Json N) × JsString) :=
  match skipSpace s with
  | [] => none
  | c :: rest =>
    if c = unit '"' then
      match parseStringBody rest with
      | none => none
      | some (k, rest) =>
        match skipSpace rest with
        | [] => none
        | c :: rest => if c = unit ':' then (value rest).map fun p => ((k, p.1), p.2) else none
    else none

/-- A JSON value at the front of a text, and the text after it. The first argument bounds the
nesting. -/
def parseValue : Nat → JsString → Option (Json N × JsString)
  | 0, _ => none
  | depth + 1, s =>
    match skipSpace s with
    | [] => none
    | c :: rest =>
      if c = unit '"' then (parseStringBody rest).map fun p => (.str p.1, p.2)
      else if c = unit '[' then
        (parseBracketed (parseValue depth) (unit ']') rest).map fun p => (.arr p.1, p.2)
      else if c = unit '{' then
        (parseBracketed (parseMember (parseValue depth)) (unit '}') rest).map fun p =>
          (objectOf p.1, p.2)
      else parseScalar (c :: rest)

/-- JSON.parse; `none` is a SyntaxError. A text nests no deeper than it is long. -/
def parseJson (text : JsString) : Option (Json N) :=
  match parseValue text.length text with
  | some (v, rest) => if skipSpace rest = [] then some v else none
  | none => none

end

end Musi.Js
