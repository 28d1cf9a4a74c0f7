import RiscvDialect.Reading

/-!
# Quoted strings

A string in double quotes. Quotes and backslashes inside it, and newlines and tabs, are written
with a backslash; every other character stands for itself.

## Main definitions

* `escapeChar`, `quote`: write a string
* `unescape?`, `readQuoted`: read a string
-/

namespace RiscvDialect.Generic

/-- A character as it is written between quotes. -/
def escapeChar (c : Char) : List Char :=
  if c = '"' then ['\\', '"']
  else if c = '\\' then ['\\', '\\']
  else if c = '\n' then ['\\', 'n']
  else if c = '\t' then ['\\', 't']
  else [c]

/-- A string in quotes. -/
def quote (s : String) : String :=
  "\"" ++ String.ofList (s.toList.flatMap escapeChar) ++ "\""

/-- The character that is written as a backslash and the given one. -/
def unescape? (c : Char) : Option Char :=
  if c = '"' then some '"'
  else if c = '\\' then some '\\'
  else if c = 'n' then some '\n'
  else if c = 't' then some '\t'
  else none

/-- Read the rest of a string after its opening quote. -/
def readQuotedBody : List Char → Except Fault (List Char × List Char)
  | [] => Fault.expected "closing '\"'" []
  | '"' :: rest => .ok ([], rest)
  | ['\\'] => Fault.expected "escape sequence" ['\\']
  | '\\' :: e :: rest =>
    match unescape? e with
    | some c => (readQuotedBody rest).map fun (value, rest) => (c :: value, rest)
    | none => Fault.expected "escape sequence" ('\\' :: e :: rest)
  | c :: rest => (readQuotedBody rest).map fun (value, rest) => (c :: value, rest)

/-- Read a string in quotes, known to messages as `what`. -/
def readQuoted (what : String) : List Char → Except Fault (String × List Char)
  | '"' :: rest => do
    let (value, rest) ← readQuotedBody rest
    return (String.ofList value, rest)
  | text => Fault.expected what text

theorem leaves_of_readQuotedBody {text value rest : List Char}
    (h : readQuotedBody text = .ok (value, rest)) : Leaves text rest := by
  fun_induction readQuotedBody text generalizing value rest with
  | case1 => simp [Fault.expected] at h
  | case2 tail => cases h; exact .of_suffix (List.suffix_refl _)
  | case3 => simp [Fault.expected] at h
  | case4 e tail c he ih =>
    obtain ⟨⟨v, r⟩, hr, hp⟩ := Except.map_eq_ok.1 h
    cases hp
    exact .of_suffix ((ih hr).suffix.trans (List.suffix_cons e tail))
  | case5 => simp [Fault.expected] at h
  | case6 c tail _ _ _ ih =>
    obtain ⟨⟨v, r⟩, hr, hp⟩ := Except.map_eq_ok.1 h
    cases hp
    exact .of_suffix (ih hr).suffix

theorem leaves_of_readQuoted {what value : String} {text rest : List Char}
    (h : readQuoted what text = .ok (value, rest)) : Leaves text rest := by
  unfold readQuoted at h
  split at h
  · obtain ⟨⟨v, r⟩, hr, hp⟩ := Except.bind_eq_ok.1 h
    cases hp
    exact .of_suffix (leaves_of_readQuotedBody hr).suffix
  · simp [Fault.expected] at h

end RiscvDialect.Generic
