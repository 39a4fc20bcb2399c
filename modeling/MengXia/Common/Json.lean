import MengXia.Common.Digits
import Mathlib.Data.List.Chain
import Mathlib.Data.List.TakeWhile
import Mathlib.Data.Nat.Notation
/-!
# JSON text

A reader and a compact writer of JSON. The reader first cuts the text into
tokens and then parses them by recursive descent; the writer emits the
tokens of a document without white space. What a run of number characters
denotes is left to a number format. `readText_writeText` is the round trip.

The grammar is that of RFC 8259, in the reading of the crate `serde_json`
without its optional features: a `\u` escape of a leading surrogate needs one
of a trailing surrogate behind it, control characters stand in a string only
escaped, and the writer escapes those, the quote and the backslash, with the
short escapes where there are any and lower-case digits elsewhere. The limit
of the crate on nesting, 127 levels, is not part of the reader.
-/

namespace Common

/-- A JSON document, its fields in the order of the text. -/
inductive Json (N : Type) where
  | null
  | bool (b : Bool)
  | number (n : N)
  | string (t : List Char)
  | array (items : List (Json N))
  | object (fields : List (List Char × Json N))

namespace Json

variable {c : Char} {rest : List Char}

/-! ## Numbers -/

/-- The characters a number starts with. -/
def isNumberStart (c : Char) : Bool :=
  c == '-' || c.isDigit

/-- The characters a number is made of. -/
def isNumberChar (c : Char) : Bool :=
  c.isDigit || ['+', '-', '.', 'e', 'E'].contains c

/-- The text of a number: a run of number characters. -/
@[ext]
structure NumberText where
  text : List Char
  starts : text.head?.any isNumberStart = true
  made : text.all isNumberChar = true
  deriving DecidableEq

/-! ## Tokens -/

inductive Token where
  | openArray
  | closeArray
  | openObject
  | closeObject
  | comma
  | colon
  | null
  | bool (b : Bool)
  | number (n : NumberText)
  | string (t : List Char)

/-- The punctuation tokens. -/
def punctuation (c : Char) : Option Token :=
  if c = '[' then some .openArray
  else if c = ']' then some .closeArray
  else if c = '\x7b' then some .openObject
  else if c = '\x7d' then some .closeObject
  else if c = ',' then some .comma
  else if c = ':' then some .colon
  else none

def isSpace (c : Char) : Bool :=
  c == ' ' || c == '\n' || c == '\t' || c == '\r'

/-! ## Strings -/

/-- Four hexadecimal digits. -/
def readHex : List Char → Option (ℕ × List Char)
  | a :: b :: c :: d :: rest => do
    let a ← hexValue a
    let b ← hexValue b
    let c ← hexValue c
    let d ← hexValue d
    return (4096 * a + 256 * b + 16 * c + d, rest)
  | _ => none

/-- The rest of an escape that starts with a backslash and a `u`. A leading
surrogate needs a trailing one after it, and a trailing one never stands
alone. -/
def readUnicode (cs : List Char) : Option (Char × List Char) := do
  let (n, rest) ← readHex cs
  if 0xdc00 ≤ n ∧ n ≤ 0xdfff then none
  else if n < 0xd800 ∨ 0xdbff < n then return (Char.ofNat n, rest)
  else
    let (m, rest) ← (rest.dropPrefix? ['\\', 'u']).bind readHex
    if m < 0xdc00 ∨ 0xdfff < m then none
    else return (Char.ofNat ((n - 0xd800) * 1024 + (m - 0xdc00) + 0x10000), rest)

/-- The escapes of one character. -/
def shortEscapes : List (Char × Char) :=
  [('"', '"'), ('\\', '\\'), ('/', '/'), ('b', '\x08'), ('f', '\x0c'), ('n', '\n'), ('r', '\r'),
    ('t', '\t')]

/-- What follows a backslash. -/
def readEscape : List Char → Option (Char × List Char)
  | [] => none
  | c :: rest =>
    match shortEscapes.lookup c with
    | some d => some (d, rest)
    | none => if c = 'u' then readUnicode rest else none

/-- The rest of a string whose opening quote has been read. -/
def readString : ℕ → List Char → Option (List Char × List Char)
  | 0, _ => none
  | _ + 1, [] => none
  | fuel + 1, c :: rest =>
    if c = '"' then some ([], rest)
    else if c = '\\' then do
      let (d, rest) ← readEscape rest
      let (t, rest) ← readString fuel rest
      return (d :: t, rest)
    else if c.toNat < 0x20 then none
    else do
      let (t, rest) ← readString fuel rest
      return (c :: t, rest)

/-- A character inside a written string. -/
def escape (c : Char) : List Char :=
  if c = '"' then ['\\', '"']
  else if c = '\\' then ['\\', '\\']
  else if c = '\x08' then ['\\', 'b']
  else if c = '\x0c' then ['\\', 'f']
  else if c = '\n' then ['\\', 'n']
  else if c = '\r' then ['\\', 'r']
  else if c = '\t' then ['\\', 't']
  else if c.toNat < 0x20 then
    ['\\', 'u', '0', '0', hexDigit (c.toNat / 16), hexDigit (c.toNat % 16)]
  else [c]

/-- A string as it is written. -/
def quote (t : List Char) : List Char :=
  '"' :: t.flatMap escape ++ ['"']

/-! ## Reading -/

/-- The tokens that are words. -/
def literals : List (List Char × Token) :=
  [(['n', 'u', 'l', 'l'], .null), (['t', 'r', 'u', 'e'], .bool true),
    (['f', 'a', 'l', 's', 'e'], .bool false)]

/-- The number at the start of the text, as far as number characters go. -/
def readNumber (cs : List Char) : Option (NumberText × List Char) :=
  if h : (cs.takeWhile isNumberChar).head?.any isNumberStart = true then
    some (⟨cs.takeWhile isNumberChar, h, List.all_takeWhile⟩, cs.dropWhile isNumberChar)
  else none

/-- The token at the start of the text. -/
def readToken (cs : List Char) : Option (Token × List Char) :=
  match cs with
  | [] => none
  | c :: rest =>
    match punctuation c with
    | some token => some (token, rest)
    | none =>
      if c = '"' then (readString rest.length rest).map fun r => (.string r.1, r.2)
      else if isNumberStart c then (readNumber cs).map fun r => (.number r.1, r.2)
      else literals.findSome? fun word => (cs.dropPrefix? word.1).map (word.2, ·)

/-- The tokens of a text. Each takes a character, so the length is fuel enough. -/
def tokenize : ℕ → List Char → Option (List Token)
  | _, [] => some []
  | 0, _ :: _ => none
  | fuel + 1, c :: rest =>
    if isSpace c then tokenize fuel rest
    else do
      let (token, rest) ← readToken (c :: rest)
      let tokens ← tokenize fuel rest
      return token :: tokens

mutual

/-- A value at the start of the tokens. Each call takes a token, so their
number is fuel enough. -/
def parseValue : ℕ → List Token → Option (Json NumberText × List Token)
  | 0, _ => none
  | _ + 1, [] => none
  | fuel + 1, token :: ts =>
    match token, ts with
    | .null, ts => some (.null, ts)
    | .bool b, ts => some (.bool b, ts)
    | .number n, ts => some (.number n, ts)
    | .string t, ts => some (.string t, ts)
    | .openArray, .closeArray :: ts => some (.array [], ts)
    | .openArray, ts => do
      let (item, ts) ← parseValue fuel ts
      let (items, ts) ← parseItems fuel ts
      return (.array (item :: items), ts)
    | .openObject, .closeObject :: ts => some (.object [], ts)
    | .openObject, .string key :: .colon :: ts => do
      let (value, ts) ← parseValue fuel ts
      let (fields, ts) ← parseFields fuel ts
      return (.object ((key, value) :: fields), ts)
    | _, _ => none

/-- The rest of an array after an item. -/
def parseItems : ℕ → List Token → Option (List (Json NumberText) × List Token)
  | 0, _ => none
  | _ + 1, .closeArray :: ts => some ([], ts)
  | fuel + 1, .comma :: ts => do
    let (item, ts) ← parseValue fuel ts
    let (items, ts) ← parseItems fuel ts
    return (item :: items, ts)
  | _ + 1, _ => none

/-- The rest of an object after a field. -/
def parseFields : ℕ → List Token → Option (List (List Char × Json NumberText) × List Token)
  | 0, _ => none
  | _ + 1, .closeObject :: ts => some ([], ts)
  | fuel + 1, .comma :: .string key :: .colon :: ts => do
    let (value, ts) ← parseValue fuel ts
    let (fields, ts) ← parseFields fuel ts
    return ((key, value) :: fields, ts)
  | _ + 1, _ => none

end

/-- A whole text that is one document. -/
def readText (cs : List Char) : Option (Json NumberText) := do
  let tokens ← tokenize cs.length cs
  let (document, rest) ← parseValue tokens.length tokens
  if rest.isEmpty then return document else none

/-! ## Writing -/

/-- A token as it is written. -/
def Token.render : Token → List Char
  | .openArray => ['[']
  | .closeArray => [']']
  | .openObject => ['\x7b']
  | .closeObject => ['\x7d']
  | .comma => [',']
  | .colon => [':']
  | .null => ['n', 'u', 'l', 'l']
  | .bool true => ['t', 'r', 'u', 'e']
  | .bool false => ['f', 'a', 'l', 's', 'e']
  | .number n => n.text
  | .string t => quote t

mutual

/-- The tokens of a document. -/
def tokens : Json NumberText → List Token
  | .null => [.null]
  | .bool b => [.bool b]
  | .number n => [.number n]
  | .string t => [.string t]
  | .array [] => [.openArray, .closeArray]
  | .array (item :: items) => .openArray :: tokens item ++ itemTokens items
  | .object [] => [.openObject, .closeObject]
  | .object ((key, value) :: fields) =>
    .openObject :: .string key :: .colon :: tokens value ++ fieldTokens fields

/-- The tokens that follow an item of an array. -/
def itemTokens : List (Json NumberText) → List Token
  | [] => [.closeArray]
  | item :: items => .comma :: tokens item ++ itemTokens items

/-- The tokens that follow a field of an object. -/
def fieldTokens : List (List Char × Json NumberText) → List Token
  | [] => [.closeObject]
  | (key, value) :: fields =>
    .comma :: .string key :: .colon :: tokens value ++ fieldTokens fields

end

/-- A document without white space. -/
def writeText (document : Json NumberText) : List Char :=
  (tokens document).flatMap Token.render

/-! ## The round trip of strings -/

/-- An escape has a character. -/
theorem one_le_length_escape (c : Char) : 1 ≤ (escape c).length := by
  unfold escape
  split_ifs <;> simp

/-- Escaping does not shorten a string. -/
theorem length_le_length_flatMap_escape (t : List Char) :
    t.length ≤ (t.flatMap escape).length := by
  induction t with
  | nil => simp
  | cons c t ih =>
    have := one_le_length_escape c
    rw [List.flatMap_cons, List.length_append, List.length_cons]
    omega

/-- An escape within a string. -/
theorem readString_backslash {cs text : List Char} (fuel : ℕ) (h : readEscape text = some (c, cs)) :
    readString (fuel + 1) ('\\' :: text) =
      (readString fuel cs).map fun r => (c :: r.1, r.2) := by
  cases hr : readString fuel cs <;> simp [readString, h, hr]

/-- A control character is escaped by its number. -/
theorem readUnicode_control (h : c.toNat < 0x20) (cs : List Char) :
    readUnicode ('0' :: '0' :: hexDigit (c.toNat / 16) :: hexDigit (c.toNat % 16) :: cs) =
      some (c, cs) := by
  have hzero : hexValue '0' = some 0 := by decide
  have hhigh := hexValue_hexDigit (n := c.toNat / 16) (by omega)
  have hlow := hexValue_hexDigit (n := c.toNat % 16) (by omega)
  have hvalue : 16 * (c.toNat / 16) + c.toNat % 16 = c.toNat := Nat.div_add_mod _ _
  have hhex : readHex ('0' :: '0' :: hexDigit (c.toNat / 16) :: hexDigit (c.toNat % 16) :: cs) =
      some (c.toNat, cs) := by
    simp [readHex, hzero, hhigh, hlow, hvalue]
  have htrailing : ¬(0xdc00 ≤ c.toNat ∧ c.toNat ≤ 0xdfff) := by omega
  have hplain : c.toNat < 0xd800 ∨ 0xdbff < c.toNat := by omega
  simp [readUnicode, hhex, htrailing, hplain, Char.ofNat_toNat]

/-- **An escaped character is read back.** -/
theorem readString_escape (c : Char) (fuel : ℕ) (cs : List Char) :
    readString (fuel + 1) (escape c ++ cs) =
      (readString fuel cs).map fun r => (c :: r.1, r.2) := by
  unfold escape
  split_ifs with h1 h2 h3 h4 h5 h6 h7 h8
  · exact readString_backslash fuel (by rw [h1]; rfl)
  · exact readString_backslash fuel (by rw [h2]; rfl)
  · exact readString_backslash fuel (by rw [h3]; rfl)
  · exact readString_backslash fuel (by rw [h4]; rfl)
  · exact readString_backslash fuel (by rw [h5]; rfl)
  · exact readString_backslash fuel (by rw [h6]; rfl)
  · exact readString_backslash fuel (by rw [h7]; rfl)
  · exact readString_backslash fuel (readUnicode_control h8 cs)
  · cases h : readString fuel cs <;> simp [readString, h1, h2, h8, h]

/-- **A quoted string is read back.** -/
theorem readString_quote {t : List Char} {fuel : ℕ} (h : t.length < fuel) :
    readString fuel (t.flatMap escape ++ '"' :: rest) = some (t, rest) := by
  induction t generalizing fuel with
  | nil =>
    obtain ⟨fuel, rfl⟩ := Nat.exists_eq_succ_of_ne_zero (Nat.ne_of_gt h)
    simp [readString]
  | cons c t ih =>
    obtain ⟨fuel, rfl⟩ := Nat.exists_eq_succ_of_ne_zero (Nat.ne_of_gt (Nat.zero_lt_of_lt h))
    rw [List.flatMap_cons, List.append_assoc, readString_escape, ih (Nat.lt_of_succ_lt_succ h)]
    rfl

/-! ## The round trip of tokens -/

/-- A text that does not go on with a number character. -/
def Stops (cs : List Char) : Prop :=
  ∀ c ∈ cs.head?, isNumberChar c = false

/-- A number is read up to where it stops. -/
theorem readNumber_append (n : NumberText) (h : Stops rest) :
    readNumber (n.text ++ rest) = some (n, rest) := by
  have hall : ∀ c ∈ n.text, isNumberChar c = true := List.all_eq_true.1 n.made
  have htake : (n.text ++ rest).takeWhile isNumberChar = n.text := by
    rw [List.takeWhile_append_of_pos hall]
    cases rest with
    | nil => simp
    | cons c rest => simp [h c rfl]
  have hdrop : (n.text ++ rest).dropWhile isNumberChar = rest := by
    rw [List.dropWhile_append_of_pos hall]
    cases rest with
    | nil => rfl
    | cons c rest => simp [h c rfl]
  have hstarts : ((n.text ++ rest).takeWhile isNumberChar).head?.any isNumberStart = true := by
    rw [htake]
    exact n.starts
  rw [readNumber, dif_pos hstarts, hdrop, Option.some_inj, Prod.mk.injEq]
  exact ⟨NumberText.ext htake, rfl⟩

/-- A number starts as one. -/
theorem NumberText.text_eq (n : NumberText) :
    ∃ c cs, n.text = c :: cs ∧ isNumberStart c = true := by
  have h := n.starts
  cases ht : n.text with
  | nil => simp [ht] at h
  | cons c cs => exact ⟨c, cs, rfl, by simpa [ht] using h⟩

/-- What starts a number starts nothing else. -/
theorem punctuation_of_isNumberStart (h : isNumberStart c = true) :
    punctuation c = none ∧ c ≠ '"' ∧ isSpace c = false := by
  have hne : ∀ d, isNumberStart d = false → c ≠ d := by
    rintro d hd rfl
    rw [h] at hd
    cases hd
  refine ⟨?_, hne _ (by decide), ?_⟩
  · simp [punctuation, hne '[' (by decide), hne ']' (by decide), hne '\x7b' (by decide),
      hne '\x7d' (by decide), hne ',' (by decide), hne ':' (by decide)]
  · simp [isSpace, hne ' ' (by decide), hne '\n' (by decide), hne '\t' (by decide),
      hne '\r' (by decide)]

def Token.isNumber : Token → Bool
  | .number _ => true
  | _ => false

/-- **A written token is read back**, when what follows a number is not part
of it. -/
theorem readToken_render (token : Token) (h : token.isNumber = true → Stops rest) :
    readToken (token.render ++ rest) = some (token, rest) := by
  cases token with
  | null => simp [Token.render, readToken, punctuation, isNumberStart, literals, List.dropPrefix?]
  | bool b =>
    cases b <;>
      simp [Token.render, readToken, punctuation, isNumberStart, literals, List.dropPrefix?]
  | number n =>
    obtain ⟨c, cs, htext, hstart⟩ := n.text_eq
    obtain ⟨hpunctuation, hquote, -⟩ := punctuation_of_isNumberStart hstart
    have hread := readNumber_append n (h rfl)
    rw [htext] at hread
    rw [Token.render, htext]
    simp only [readToken, List.cons_append, hpunctuation, hquote, hstart, if_false, if_true]
    rw [List.cons_append] at hread
    rw [hread]
    rfl
  | string t =>
    have hlength : t.length < (t.flatMap escape ++ '"' :: rest).length := by
      have := length_le_length_flatMap_escape t
      rw [List.length_append, List.length_cons]
      omega
    have hread : _ = some (t, rest) := readString_quote hlength
    have hquote : punctuation '"' = none := by decide
    simp only [Token.render, quote, readToken, List.cons_append, List.append_assoc, hquote,
      List.nil_append, if_true, hread, Option.map_some]
  | _ => rfl

/-- A token is written with a first character that is no space. -/
theorem Token.render_eq (token : Token) : ∃ c cs, token.render = c :: cs ∧ isSpace c = false ∧
    (token.isNumber = false → isNumberChar c = false) := by
  cases token with
  | number n =>
    obtain ⟨c, cs, htext, hstart⟩ := n.text_eq
    refine ⟨c, cs, htext, (punctuation_of_isNumberStart hstart).2.2, fun h => ?_⟩
    cases h
  | bool b =>
    cases b
    · exact ⟨'f', _, rfl, by decide, fun _ => by decide⟩
    · exact ⟨'t', _, rfl, by decide, fun _ => by decide⟩
  | _ => exact ⟨_, _, rfl, by decide, fun _ => by decide⟩

/-- No number directly follows another. -/
def Separated (ts : List Token) : Prop :=
  ts.IsChain fun a b => a.isNumber = true → b.isNumber = false

/-- Tokens other than numbers need no space before the next. -/
theorem Separated.cons {t : Token} {ts : List Token} (ht : t.isNumber = false)
    (hts : Separated ts) : Separated (t :: ts) :=
  List.isChain_cons.2 ⟨fun _ _ h => (by rw [ht] at h; cases h), hts⟩

/-- A number stops at any other token. -/
theorem stops_render {ts : List Token} (h : ∀ t ∈ ts.head?, t.isNumber = false) :
    Stops (ts.flatMap Token.render) := by
  cases ts with
  | nil => exact fun c hc => by cases hc
  | cons t ts =>
    obtain ⟨c, cs, hrender, -, hc⟩ := t.render_eq
    intro d hd
    rw [List.flatMap_cons, hrender, List.cons_append, List.head?_cons, Option.mem_some_iff] at hd
    rw [← hd]
    exact hc (h t rfl)

/-- **Written tokens are cut apart again.** -/
theorem tokenize_render {ts : List Token} (h : Separated ts) {fuel : ℕ}
    (hfuel : (ts.flatMap Token.render).length ≤ fuel) :
    tokenize fuel (ts.flatMap Token.render) = some ts := by
  induction ts generalizing fuel with
  | nil => cases fuel <;> rfl
  | cons t ts ih =>
    obtain ⟨c, cs, hrender, hspace, -⟩ := t.render_eq
    obtain ⟨hhead, htail⟩ := List.isChain_cons.1 h
    have hread : readToken (t.render ++ ts.flatMap Token.render) =
        some (t, ts.flatMap Token.render) :=
      readToken_render t fun ht => stops_render fun t' ht' => hhead t' ht' ht
    rw [hrender, List.cons_append] at hread
    rw [List.flatMap_cons, hrender, List.cons_append] at hfuel ⊢
    rw [List.length_cons, List.length_append] at hfuel
    obtain ⟨fuel, rfl⟩ := Nat.exists_eq_succ_of_ne_zero (n := fuel) (by omega)
    have hrest : tokenize fuel (ts.flatMap Token.render) = some ts := ih htail (by omega)
    simp only [tokenize, hspace, hread, hrest, Bool.false_eq_true, if_false,
      Option.bind_eq_bind, Option.bind_some, Option.pure_def]

/-! ## The round trip of documents -/

mutual

/-- No two numbers of a document touch. -/
theorem separated_tokens {rest : List Token} : (document : Json NumberText) →
    (∀ t ∈ rest.head?, t.isNumber = false) → Separated rest →
    Separated (tokens document ++ rest)
  | .null, _, hrest => .cons rfl hrest
  | .bool _, _, hrest => .cons rfl hrest
  | .string _, _, hrest => .cons rfl hrest
  | .number _, hhead, hrest => List.isChain_cons.2 ⟨fun t ht _ => hhead t ht, hrest⟩
  | .array [], _, hrest => .cons rfl (.cons rfl hrest)
  | .object [], _, hrest => .cons rfl (.cons rfl hrest)
  | .array (item :: items), _, hrest => by
    obtain ⟨hhead, hitems⟩ := separated_itemTokens items hrest
    simp only [tokens, List.cons_append, List.append_assoc]
    exact .cons rfl (separated_tokens item hhead hitems)
  | .object ((key, value) :: fields), _, hrest => by
    obtain ⟨hhead, hfields⟩ := separated_fieldTokens fields hrest
    simp only [tokens, List.cons_append, List.append_assoc]
    exact .cons rfl (.cons rfl (.cons rfl (separated_tokens value hhead hfields)))

theorem separated_itemTokens {rest : List Token} : (items : List (Json NumberText)) →
    Separated rest →
    (∀ t ∈ (itemTokens items ++ rest).head?, t.isNumber = false) ∧
      Separated (itemTokens items ++ rest)
  | [], hrest => ⟨fun t ht => (by cases ht; rfl), .cons rfl hrest⟩
  | item :: items, hrest => by
    obtain ⟨hhead, hitems⟩ := separated_itemTokens items hrest
    simp only [itemTokens, List.cons_append, List.append_assoc]
    exact ⟨fun t ht => (by cases ht; rfl), .cons rfl (separated_tokens item hhead hitems)⟩

theorem separated_fieldTokens {rest : List Token} :
    (fields : List (List Char × Json NumberText)) → Separated rest →
    (∀ t ∈ (fieldTokens fields ++ rest).head?, t.isNumber = false) ∧
      Separated (fieldTokens fields ++ rest)
  | [], hrest => ⟨fun t ht => (by cases ht; rfl), .cons rfl hrest⟩
  | (key, value) :: fields, hrest => by
    obtain ⟨hhead, hfields⟩ := separated_fieldTokens fields hrest
    simp only [fieldTokens, List.cons_append, List.append_assoc]
    exact ⟨fun t ht => (by cases ht; rfl),
      .cons rfl (.cons rfl (.cons rfl (separated_tokens value hhead hfields)))⟩

end

/-- A document does not start with a closing bracket. -/
theorem head?_tokens (document : Json NumberText) (rest : List Token) :
    (tokens document ++ rest).head? ≠ some .closeArray := by
  cases document with
  | array items => cases items <;> simp [tokens]
  | object fields => cases fields <;> simp [tokens]
  | _ => simp [tokens]

/-- An array that is not empty. -/
theorem parseValue_openArray {ts : List Token} (fuel : ℕ) (h : ts.head? ≠ some .closeArray) :
    parseValue (fuel + 1) (.openArray :: ts) = (parseValue fuel ts).bind fun r =>
      (parseItems fuel r.2).bind fun s => some (.array (r.1 :: s.1), s.2) := by
  cases ts with
  | nil => rfl
  | cons t ts =>
    cases t with
    | closeArray => exact absurd rfl h
    | _ => rfl

mutual

/-- **A document is parsed from its tokens.** -/
theorem parseValue_tokens (rest : List Token) : (document : Json NumberText) → (fuel : ℕ) →
    (tokens document).length ≤ fuel →
    parseValue fuel (tokens document ++ rest) = some (document, rest)
  | .null, fuel + 1, _ => rfl
  | .bool _, fuel + 1, _ => rfl
  | .number _, fuel + 1, _ => rfl
  | .string _, fuel + 1, _ => rfl
  | .array [], fuel + 1, _ => rfl
  | .object [], fuel + 1, _ => rfl
  | .array (item :: items), fuel + 1, h => by
    simp only [tokens, List.cons_append, List.append_assoc, List.length_cons,
      List.length_append] at h ⊢
    have hitem := parseValue_tokens (itemTokens items ++ rest) item fuel (by omega)
    have hitems := parseItems_itemTokens rest items fuel (by omega)
    rw [parseValue_openArray fuel (head?_tokens item _), hitem, Option.bind_some, hitems]
    rfl
  | .object ((key, value) :: fields), fuel + 1, h => by
    simp only [tokens, List.cons_append, List.append_assoc, List.length_cons,
      List.length_append] at h ⊢
    have hvalue := parseValue_tokens (fieldTokens fields ++ rest) value fuel (by omega)
    have hfields := parseFields_fieldTokens rest fields fuel (by omega)
    simp [parseValue, hvalue, hfields]

theorem parseItems_itemTokens (rest : List Token) : (items : List (Json NumberText)) →
    (fuel : ℕ) → (itemTokens items).length ≤ fuel →
    parseItems fuel (itemTokens items ++ rest) = some (items, rest)
  | [], fuel + 1, _ => rfl
  | item :: items, fuel + 1, h => by
    simp only [itemTokens, List.cons_append, List.append_assoc, List.length_cons,
      List.length_append] at h ⊢
    have hitem := parseValue_tokens (itemTokens items ++ rest) item fuel (by omega)
    have hitems := parseItems_itemTokens rest items fuel (by omega)
    simp [parseItems, hitem, hitems]

theorem parseFields_fieldTokens (rest : List Token) :
    (fields : List (List Char × Json NumberText)) → (fuel : ℕ) →
    (fieldTokens fields).length ≤ fuel →
    parseFields fuel (fieldTokens fields ++ rest) = some (fields, rest)
  | [], fuel + 1, _ => rfl
  | (key, value) :: fields, fuel + 1, h => by
    simp only [fieldTokens, List.cons_append, List.append_assoc, List.length_cons,
      List.length_append] at h ⊢
    have hvalue := parseValue_tokens (fieldTokens fields ++ rest) value fuel (by omega)
    have hfields := parseFields_fieldTokens rest fields fuel (by omega)
    simp [parseFields, hvalue, hfields]

end

/-- **A written document is read back.** -/
theorem readText_writeText (document : Json NumberText) :
    readText (writeText document) = some document := by
  have hseparated : Separated (tokens document) := by
    have h : Separated (tokens document ++ []) :=
      separated_tokens document (fun t ht => by cases ht) .nil
    rwa [List.append_nil] at h
  have htokens := tokenize_render hseparated (le_refl (writeText document).length)
  have hparse := parseValue_tokens [] document _ le_rfl
  rw [List.append_nil] at hparse
  change tokenize _ (writeText document) = _ at htokens
  simp [readText, htokens, hparse]

end Json

end Common
