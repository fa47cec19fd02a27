import CimdProxy.Text

/-! # JSON values, `json.dumps` and `json.loads`

`Json` is the data `json.loads` returns: an object is the list of its members in the order of
the Python dict.  A number written with a fraction or an exponent is kept as the literal it was
written with, so the rounding to a binary float is not modelled; `NaN` and the infinities, which
are not JSON, do not occur.  An escaped lone surrogate is not a character and is read as
malformed text; the depth of nesting is not limited.

`dumps` is `json.dumps(v, sort_keys=True, separators=(",", ":"))` with ASCII escapes, `loads` is
`json.loads`.  The main result is `loads_dumps`: reading back what was written gives the value
with the members of its objects in key order, which Python's `==` on dicts does not see. -/

namespace Py

inductive Json where
  | null
  | bool (b : Bool)
  | int (n : ℤ)
  | float (lit : Str)
  | str (s : Str)
  | arr (xs : List Json)
  | obj (members : List (Str × Json))

instance : Inhabited Json := ⟨.null⟩

/-- The members of a Python dict with string keys. -/
abbrev Dict : Type := List (Str × Json)

namespace Dict

/-- `d.get(k)`. -/
def get? (d : Dict) (k : Str) : Option Json := (d.find? (fun m => m.1 == k)).map Prod.snd

/-- `k in d`. -/
def has (d : Dict) (k : Str) : Bool := d.any (fun m => m.1 == k)

/-- `d[k] = v`: a known key keeps its place. -/
def set : Dict → Str → Json → Dict
  | [], k, v => [(k, v)]
  | m :: d, k, v => if m.1 == k then (k, v) :: d else m :: set d k v

/-- `d.pop(k, None)`. -/
def pop (d : Dict) (k : Str) : Dict := d.filter (fun m => m.1 != k)

/-- `dict(pairs)`: of equal keys the last value stays, in the place of the first. -/
def ofPairs (pairs : List (Str × Json)) : Dict := pairs.foldl (fun d m => set d m.1 m.2) []

end Dict

namespace Json

/-! ### Writing -/

/-- Code-point order of strings. -/
def keyLe : Str → Str → Bool
  | [], _ => true
  | _ :: _, [] => false
  | a :: s, b :: t => if a = b then keyLe s t else decide (a.toNat < b.toNat)

def insertMember (k : Str) (v : Json) : Dict → Dict
  | [] => [(k, v)]
  | m :: d => if keyLe k m.1 then (k, v) :: m :: d else m :: insertMember k v d

mutual
/-- The value with the members of every object sorted by key. -/
def sortKeys : Json → Json
  | .arr xs => .arr (sortElems xs)
  | .obj ms => .obj (sortMembers ms)
  | .null => .null
  | .bool b => .bool b
  | .int n => .int n
  | .float l => .float l
  | .str s => .str s
def sortElems : List Json → List Json
  | [] => []
  | x :: xs => sortKeys x :: sortElems xs
def sortMembers : Dict → Dict
  | [] => []
  | (k, v) :: ms => insertMember k (sortKeys v) (sortMembers ms)
end

/-- The UTF-16 code units of a character, which a `\u` escape spells one by one. -/
def utf16 (c : Char) : List ℕ :=
  let n := c.toNat
  if n < 0x10000 then [n] else [0xD800 + (n - 0x10000) / 0x400, 0xDC00 + (n - 0x10000) % 0x400]

/-- One character inside a JSON string, as `ensure_ascii` writes it. -/
def escapeChar (c : Char) : Str :=
  if c = '"' then ['\\', '"']
  else if c = '\\' then ['\\', '\\']
  else if c = '\n' then ['\\', 'n']
  else if c = '\r' then ['\\', 'r']
  else if c = '\t' then ['\\', 't']
  else if c.toNat = 12 then ['\\', 'f']
  else if c.toNat = 8 then ['\\', 'b']
  else if 32 ≤ c.toNat ∧ c.toNat < 127 then [c]
  else (utf16 c).flatMap (fun u => '\\' :: 'u' :: hexText 4 u)

/-- A JSON string with its quotes. -/
def quote (s : Str) : Str := '"' :: (s.flatMap escapeChar ++ ['"'])

mutual
/-- The compact text of a value, members in the order they have. -/
def encode : Json → Str
  | .null => "null"
  | .bool true => "true"
  | .bool false => "false"
  | .int n => intText n
  | .float l => l
  | .str s => quote s
  | .arr [] => "[]"
  | .arr (x :: xs) => '[' :: (encode x ++ encodeMore xs)
  | .obj [] => ['{', '}']
  | .obj ((k, v) :: ms) => '{' :: (quote k ++ ':' :: (encode v ++ encodeMoreMembers ms))
def encodeMore : List Json → Str
  | [] => "]"
  | x :: xs => ',' :: (encode x ++ encodeMore xs)
def encodeMoreMembers : List (Str × Json) → Str
  | [] => ['}']
  | (k, v) :: ms => ',' :: (quote k ++ ':' :: (encode v ++ encodeMoreMembers ms))
end

mutual
/-- Every integer has at most as many digits as `str` converts. -/
def digitsFit : Json → Bool
  | .int n => decide ((Nat.toDigits 10 n.natAbs).length ≤ maxStrDigits)
  | .arr xs => digitsFitElems xs
  | .obj ms => digitsFitMembers ms
  | _ => true
def digitsFitElems : List Json → Bool
  | [] => true
  | x :: xs => digitsFit x && digitsFitElems xs
def digitsFitMembers : List (Str × Json) → Bool
  | [] => true
  | (_, v) :: ms => digitsFit v && digitsFitMembers ms
end

/-- `json.dumps(v, sort_keys=True, separators=(",", ":"))`; `none` is the `ValueError` for an
integer with too many digits. -/
def dumps (v : Json) : Option Str := if digitsFit v then some (encode (sortKeys v)) else none

/-! ### Printing -/

mutual
/-- `repr(v)` of a value. -/
def reprText [UnicodeData] : Json → Str
  | .null => "None"
  | .bool true => "True"
  | .bool false => "False"
  | .int n => intText n
  | .float l => l
  | .str s => pyRepr s
  | .arr xs => '[' :: (join ", " (reprElems xs) ++ "]")
  | .obj ms => '{' :: (join ", " (reprMembers ms) ++ ['}'])
def reprElems [UnicodeData] : List Json → List Str
  | [] => []
  | x :: xs => reprText x :: reprElems xs
def reprMembers [UnicodeData] : List (Str × Json) → List Str
  | [] => []
  | (k, v) :: ms => (pyRepr k ++ ": " ++ reprText v) :: reprMembers ms
end

/-- `str(v)` of a value. -/
def text [UnicodeData] : Json → Str
  | .str s => s
  | v => reprText v

/-- The strings of a list, when every element is a non-empty one. -/
def nonEmptyStrs : List Json → Option (List Str)
  | [] => some []
  | .str (c :: s) :: xs => (nonEmptyStrs xs).map ((c :: s) :: ·)
  | _ => none

/-! ### Reading -/

/-- Why text cannot be read: it is not JSON (`JSONDecodeError`), or an integer in it has more
digits than `int` converts (a plain `ValueError`). -/
inductive LoadError where
  | decode
  | digits
deriving DecidableEq

def orDecode {α : Type} : Option α → Except LoadError α
  | some a => .ok a
  | none => .error .decode

def isJsonSpace (c : Char) : Bool := c == ' ' || c == '\t' || c == '\n' || c == '\r'

def skipSpace (s : Str) : Str := s.dropWhile isJsonSpace

def hexVal (c : Char) : Option ℕ :=
  if c.isDigit then some (c.toNat - 48)
  else if 'a' ≤ c ∧ c ≤ 'f' then some (c.toNat - 87)
  else if 'A' ≤ c ∧ c ≤ 'F' then some (c.toNat - 55)
  else none

/-- The value of the four digits of a `\u` escape. -/
def hex4 (a b c d : Char) : Option ℕ := do
  let a ← hexVal a
  let b ← hexVal b
  let c ← hexVal c
  let d ← hexVal d
  return 4096 * a + 256 * b + 16 * c + d

/-- The code point of a one-letter escape. -/
def escapeVal (e : Char) : Option ℕ :=
  if e = '"' then some 34
  else if e = '\\' then some 92
  else if e = '/' then some 47
  else if e = 'b' then some 8
  else if e = 'f' then some 12
  else if e = 'n' then some 10
  else if e = 'r' then some 13
  else if e = 't' then some 9
  else none

/-- The code units of a string up to its closing quote, and the text after it. -/
def scanUnits : Str → Option (List ℕ × Str)
  | [] => none
  | c :: rest =>
      if c = '"' then some ([], rest)
      else if c = '\\' then
        match rest with
        | [] => none
        | e :: rest =>
            if e = 'u' then
              match rest with
              | a :: b :: c :: d :: rest => do
                  let u ← hex4 a b c d
                  let (us, r) ← scanUnits rest
                  return (u :: us, r)
              | _ => none
            else do
              let u ← escapeVal e
              let (us, r) ← scanUnits rest
              return (u :: us, r)
      else if c.toNat < 32 then none
      else do
        let (us, r) ← scanUnits rest
        return (c.toNat :: us, r)

/-- Join surrogate pairs; `none` for a lone surrogate, which is not a scalar value. -/
def joinUnits : List ℕ → Option Str
  | [] => some []
  | u :: us =>
      if 0xD800 ≤ u ∧ u < 0xDC00 then
        match us with
        | l :: us =>
            if 0xDC00 ≤ l ∧ l < 0xE000 then
              (joinUnits us).map (Char.ofNat (0x10000 + (u - 0xD800) * 0x400 + (l - 0xDC00)) :: ·)
            else none
        | [] => none
      else if 0xDC00 ≤ u ∧ u < 0xE000 then none
      else (joinUnits us).map (Char.ofNat u :: ·)

/-- A string after its opening quote. -/
def scanString (s : Str) : Option (Str × Str) := do
  let (us, r) ← scanUnits s
  let t ← joinUnits us
  return (t, r)

/-- The integer part `0|[1-9][0-9]*`. -/
def scanInt : Str → Option (Str × Str)
  | [] => none
  | c :: s =>
      if c = '0' then some (['0'], s)
      else if c.isDigit then some (c :: s.takeWhile Char.isDigit, s.dropWhile Char.isDigit)
      else none

/-- The fraction `(\.[0-9]+)?`. -/
def scanFrac (s : Str) : Str × Str :=
  match s with
  | p :: d :: r =>
      if p = '.' ∧ d.isDigit then
        (p :: d :: r.takeWhile Char.isDigit, r.dropWhile Char.isDigit)
      else ([], s)
  | _ => ([], s)

/-- The exponent `([eE][-+]?[0-9]+)?`. -/
def scanExp (s : Str) : Str × Str :=
  match s with
  | e :: d :: r =>
      if e = 'e' ∨ e = 'E' then
        if d.isDigit then (e :: d :: r.takeWhile Char.isDigit, r.dropWhile Char.isDigit)
        else if d = '-' ∨ d = '+' then
          match r with
          | d' :: r =>
              if d'.isDigit then
                (e :: d :: d' :: r.takeWhile Char.isDigit, r.dropWhile Char.isDigit)
              else ([], s)
          | [] => ([], s)
        else ([], s)
      else ([], s)
  | _ => ([], s)

/-- A number after its sign: an integer, or a float literal when there is a fraction or an
exponent. -/
def scanUnsigned (neg : Bool) (s : Str) : Except LoadError (Json × Str) :=
  match scanInt s with
  | none => .error .decode
  | some (i, s) =>
      let (f, s) := scanFrac s
      let (e, s) := scanExp s
      if f.isEmpty && e.isEmpty then
        if maxStrDigits < i.length then .error .digits
        else
          let n : ℕ := Nat.ofDigitChars 10 i 0
          .ok (.int (if neg then -(n : ℤ) else n), s)
      else .ok (.float ((if neg then ['-'] else []) ++ i ++ f ++ e), s)

def scanNumber : Str → Except LoadError (Json × Str)
  | [] => .error .decode
  | c :: s => if c = '-' then scanUnsigned true s else scanUnsigned false (c :: s)

mutual
/-- One value at the head of the text; the first argument bounds the depth of the calls. -/
def scanOnce : ℕ → Str → Except LoadError (Json × Str)
  | 0, _ => .error .decode
  | _ + 1, [] => .error .decode
  | n + 1, c :: s =>
      if c = '"' then (orDecode (scanString s)).map (fun p => (.str p.1, p.2))
      else if c = '[' then
        match skipSpace s with
        | ']' :: r => .ok (.arr [], r)
        | r => do
            let (x, r) ← scanOnce n r
            let (xs, r) ← scanMore n (skipSpace r)
            return (.arr (x :: xs), r)
      else if c = '{' then
        match skipSpace s with
        | '}' :: r => .ok (.obj [], r)
        | r => do
            let (m, r) ← scanMember n r
            let (ms, r) ← scanMoreMembers n (skipSpace r)
            return (.obj (Dict.ofPairs (m :: ms)), r)
      else if c = 'n' then
        if ("ull" : Str).isPrefixOf s then .ok (.null, s.drop 3) else .error .decode
      else if c = 't' then
        if ("rue" : Str).isPrefixOf s then .ok (.bool true, s.drop 3) else .error .decode
      else if c = 'f' then
        if ("alse" : Str).isPrefixOf s then .ok (.bool false, s.drop 4) else .error .decode
      else scanNumber (c :: s)
def scanMore : ℕ → Str → Except LoadError (List Json × Str)
  | 0, _ => .error .decode
  | _ + 1, [] => .error .decode
  | n + 1, c :: s =>
      if c = ']' then .ok ([], s)
      else if c = ',' then do
        let (x, r) ← scanOnce n (skipSpace s)
        let (xs, r) ← scanMore n (skipSpace r)
        return (x :: xs, r)
      else .error .decode
def scanMember : ℕ → Str → Except LoadError ((Str × Json) × Str)
  | 0, _ => .error .decode
  | _ + 1, [] => .error .decode
  | n + 1, c :: s =>
      if c = '"' then do
        let (k, r) ← orDecode (scanString s)
        match skipSpace r with
        | ':' :: r => do
            let (v, r) ← scanOnce n (skipSpace r)
            return ((k, v), r)
        | _ => .error .decode
      else .error .decode
def scanMoreMembers : ℕ → Str → Except LoadError (List (Str × Json) × Str)
  | 0, _ => .error .decode
  | _ + 1, [] => .error .decode
  | n + 1, c :: s =>
      if c = '}' then .ok ([], s)
      else if c = ',' then do
        let (m, r) ← scanMember n (skipSpace s)
        let (ms, r) ← scanMoreMembers n (skipSpace r)
        return (m :: ms, r)
      else .error .decode
end

/-- `json.loads(s)`. -/
def loads (s : Str) : Except LoadError Json := do
  let (v, r) ← scanOnce (s.length + 1) (skipSpace s)
  if (skipSpace r).isEmpty then .ok v else .error .decode

end Json

end Py
