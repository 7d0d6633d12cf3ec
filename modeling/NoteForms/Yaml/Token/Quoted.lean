import NoteForms.Yaml.Token.Gap
import NoteForms.Text.Digits

/-! Scalars in quotes. Between single quotes a doubled quote is the only escape;
between double quotes a backslash starts one, and a break after it joins the lines. -/

namespace NoteForms.Yaml.Quoted

/-- What a short escape stands for. -/
def shortEscape? (c : Char) : Option Char :=
  match c with
  | '0' => some '\x00'
  | 'a' => some '\x07'
  | 'b' => some '\x08'
  | 't' => some '\t'
  | '\t' => some '\t'
  | 'n' => some '\n'
  | 'v' => some '\x0B'
  | 'f' => some '\x0C'
  | 'r' => some '\r'
  | 'e' => some '\x1B'
  | ' ' => some ' '
  | '/' => some '/'
  | '\\' => some '\\'
  | 'N' => some '\x85'
  | '_' => some '\xA0'
  | 'L' => some '\u2028'
  | 'P' => some '\u2029'
  | c => if c = '\x22' then some c else none

/-- How many hexadecimal digits follow. -/
def codeLength? (c : Char) : Option Nat :=
  match c with
  | 'x' => some 2
  | 'u' => some 4
  | 'U' => some 8
  | _ => none

def hexNumber : Nat → Nat → List Char → Option Nat
  | 0, n, _ => some n
  | _ + 1, _, [] => none
  | k + 1, n, c :: cs =>
    match Text.hexValue? c with
    | some d => hexNumber k (n * 16 + d) cs
    | none => none

/-- The character of an escape, after the backslash, and the length of the escape. -/
def escape : List Char → Option (Char × Nat)
  | [] => none
  | c :: cs =>
    match shortEscape? c, codeLength? c with
    | some d, _ => some (d, 1)
    | none, some k => do
      let n ← hexNumber k 0 cs
      if h : n.isValidChar then return (Char.ofNatAux n h, k + 1) else none
    | none, none => none

/-- The text up to the closing quote, and the place after it; `taken` is in
reverse. A document marker or the end of the text inside is a fault. -/
def body (quote : Char) : Nat → List Char → Cursor → Option (List Char × Cursor)
  | 0, _, _ => none
  | fuel + 1, taken, c =>
    match c.rest with
    | [] => none
    | d :: r =>
      if c.atMarker then none
      else if isSpace d then do
        let (g, c) ← Gap.scan 0 c.rest.length {} c
        body quote fuel (g.text.reverse ++ taken) c
      else if d = quote then
        match quote, r with
        | '\x27', '\x27' :: _ => body quote fuel (d :: taken) (c.skip 2)
        | _, _ => some (taken.reverse, c.skip 1)
      else if quote = '\x22' ∧ d = '\\' then
        match r with
        | [] => none
        | e :: _ =>
          if isBreak e then do
            let c := (c.skip 1).skipBreak
            let (g, c) ← Gap.scan 0 c.rest.length ⟨[], true, [], []⟩ c
            body quote fuel (g.text.reverse ++ taken) c
          else do
            let (x, n) ← escape r
            body quote fuel (x :: taken) (c.skip (n + 1))
      else body quote fuel (d :: taken) (c.skip 1)

/-- A quoted scalar, from its opening quote on. -/
def scan (quote : Char) (c : Cursor) : Option (List Char × Cursor) :=
  body quote (c.rest.length + 1) [] (c.skip 1)

end NoteForms.Yaml.Quoted
