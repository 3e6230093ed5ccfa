import Telemetry.Json.Document
import Telemetry.Proofs.Json.Scanning

/-! What is written of a value is read as the same value.
Every JSON text of the library is therefore well-formed, and nothing of a value is
lost in it but what JSON cannot say of a binary64 number. -/
namespace Telemetry.Json
open Token (scan Ends scan_mark scan_word scan_number scan_literal)

def realToken (x : Binary64) : Token :=
  if Decimal.Layout.json.write x = "null" then .null
  else .number (Decimal.Layout.json.write x).toList

mutual

/-- The tokens of the compact text of a value. -/
def tokens : Json → List Token
  | .null => [.null]
  | .bool b => [.bool b]
  | .int n => [.number (toString n).toList]
  | .real x => [realToken x]
  | .str s => [.str (some s)]
  | .arr items => .openArr :: (itemTokens items ++ [.closeArr])
  | .obj members => .openObj :: (memberTokens members ++ [.closeObj])

def itemTokens : List Json → List Token
  | [] => []
  | [v] => v.tokens
  | v :: rest => v.tokens ++ .comma :: itemTokens rest

def memberTokens : List (String × Json) → List Token
  | [] => []
  | [(k, v)] => .str (some k) :: .colon :: v.tokens
  | (k, v) :: rest => .str (some k) :: .colon :: (v.tokens ++ .comma :: memberTokens rest)

end

theorem ends_mark {c : Char} (number : Token.isNumberChar c = false) (letter : c.isAlpha = false)
    (rest : List Char) : Ends (c :: rest) := by
  intro d first
  cases first
  exact ⟨number, letter⟩

mutual

theorem scan_chars (j : Json) (rest : List Char) (ends : Ends rest) :
    scan .between (j.chars ++ rest) = (scan .between rest).map (j.tokens ++ ·) := by
  cases j with
  | null => exact scan_word (by decide) (by decide) (by decide) ends
  | bool b =>
    cases b with
    | true => exact scan_word (by decide) (by decide) (by decide) ends
    | false => exact scan_word (by decide) (by decide) (by decide) ends
  | int n => exact scan_number (Token.isLexeme_int n) ends
  | real x =>
    have written := Decimal.write_json x
    rw [chars, tokens, realToken]
    split
    · rename_i nothing
      rw [nothing]
      exact scan_word (by decide) (by decide) (by decide) ends
    · rename_i number
      exact scan_number (written.resolve_left number) ends
  | str s =>
    rw [chars, tokens, scan_literal, String.ofList_toList]
    rfl
  | arr items =>
    have inside := scan_itemChars items (']' :: rest) (ends_mark rfl rfl rest)
    rw [scan_mark (t := .closeArr) rfl] at inside
    rw [chars, List.cons_append, List.append_assoc, List.singleton_append,
      scan_mark (t := .openArr) rfl, inside]
    simp only [tokens, Option.map_map, Function.comp_def, List.cons_append, List.append_assoc,
      List.nil_append]
  | obj members =>
    have inside := scan_memberChars members ('\x7d' :: rest) (ends_mark rfl rfl rest)
    rw [scan_mark (t := .closeObj) rfl] at inside
    rw [chars, List.cons_append, List.append_assoc, List.singleton_append,
      scan_mark (t := .openObj) rfl, inside]
    simp only [tokens, Option.map_map, Function.comp_def, List.cons_append, List.append_assoc,
      List.nil_append]

theorem scan_itemChars (items : List Json) (rest : List Char) (ends : Ends rest) :
    scan .between (itemChars items ++ rest) =
      (scan .between rest).map (itemTokens items ++ ·) := by
  cases items with
  | nil => exact (Token.map_nothing _).symm
  | cons v more =>
    cases more with
    | nil => exact scan_chars v rest ends
    | cons next others =>
      have behind := scan_itemChars (next :: others) rest ends
      have value := scan_chars v (',' :: (itemChars (next :: others) ++ rest))
        (ends_mark rfl rfl _)
      rw [scan_mark (t := .comma) rfl, behind] at value
      have parts : itemTokens (v :: next :: others) =
          v.tokens ++ .comma :: itemTokens (next :: others) := rfl
      rw [itemChars, List.append_assoc, List.cons_append, value, parts]
      · simp only [Option.map_map, Function.comp_def, List.cons_append, List.append_assoc]
      · exact List.cons_ne_nil _ _

theorem scan_memberChars (members : List (String × Json)) (rest : List Char) (ends : Ends rest) :
    scan .between (memberChars members ++ rest) =
      (scan .between rest).map (memberTokens members ++ ·) := by
  cases members with
  | nil => exact (Token.map_nothing _).symm
  | cons m more =>
    obtain ⟨k, v⟩ := m
    cases more with
    | nil =>
      have value := scan_chars v rest ends
      rw [memberChars, List.append_assoc, List.cons_append, scan_literal,
        scan_mark (t := .colon) rfl, value]
      simp only [memberTokens, Option.map_map, Function.comp_def, List.cons_append,
        String.ofList_toList]
    | cons next others =>
      have behind := scan_memberChars (next :: others) rest ends
      have value := scan_chars v (',' :: (memberChars (next :: others) ++ rest))
        (ends_mark rfl rfl _)
      rw [scan_mark (t := .comma) rfl, behind] at value
      have parts : memberTokens ((k, v) :: next :: others) =
          .str (some k) :: .colon :: (v.tokens ++ .comma :: memberTokens (next :: others)) := rfl
      rw [memberChars, List.append_assoc, List.cons_append, List.append_assoc, List.cons_append,
        scan_literal, scan_mark (t := .colon) rfl, value, parts]
      · simp only [Option.map_map, Function.comp_def, List.cons_append, List.append_assoc,
          String.ofList_toList]
      · exact List.cons_ne_nil _ _

end

def realDocument (x : Binary64) : Document :=
  if Decimal.Layout.json.write x = "null" then .null
  else .number (Decimal.Layout.json.write x).toList

mutual

/-- What is read of a value. -/
def document : Json → Document
  | .null => .null
  | .bool b => .bool b
  | .int n => .number (toString n).toList
  | .real x => realDocument x
  | .str s => .str (some s)
  | .arr items => .arr (itemDocuments items)
  | .obj members => .obj (memberDocuments members)

def itemDocuments : List Json → List Document
  | [] => []
  | v :: rest => v.document :: itemDocuments rest

def memberDocuments : List (String × Json) → List (Option String × Document)
  | [] => []
  | (k, v) :: rest => (some k, v.document) :: memberDocuments rest

end

namespace Document

/-- The machine after some tokens. -/
def after (s : State) (ts : List Token) : Option State :=
  ts.foldlM step? s

theorem after_step {s next : State} {t : Token} (step : step? s t = some next) (ts : List Token) :
    after s (t :: ts) = after next ts := by
  simp [after, step]

theorem after_item (v : Json) (levels : List Level) (ts : List Token) :
    after (.item levels) (v.tokens ++ ts) =
      after (.value (.array [] :: levels)) (v.tokens ++ ts) := by
  cases v with
  | real x =>
    rw [tokens, realToken]
    split <;> rfl
  | _ => rfl

theorem after_items (v : Json) (rest : List Json) (levels : List Level) (ts : List Token) :
    after (.item levels) (itemTokens (v :: rest) ++ ts) =
      after (.value (.array [] :: levels)) (itemTokens (v :: rest) ++ ts) := by
  cases rest with
  | nil => exact after_item v levels ts
  | cons next others =>
    have parts : itemTokens (v :: next :: others) =
        v.tokens ++ .comma :: itemTokens (next :: others) := rfl
    rw [parts, List.append_assoc, after_item]

mutual

/-- The tokens of a value bring the machine to what is read of it. -/
theorem after_tokens (j : Json) (levels : List Level) (ts : List Token) :
    after (.value levels) (j.tokens ++ ts) = after (.behind j.document levels) ts := by
  cases j with
  | null => rfl
  | bool b => rfl
  | int n => rfl
  | real x =>
    rw [tokens, realToken, document, realDocument]
    split <;> rfl
  | str s => rfl
  | arr items =>
    rw [tokens, List.cons_append, after_step rfl, List.append_assoc, List.singleton_append]
    cases items with
    | nil => rfl
    | cons v rest =>
      have inside := after_itemTokens (v :: rest) (List.cons_ne_nil _ _) [] levels ts
      rw [after_items, inside]
      rfl
  | obj members =>
    rw [tokens, List.cons_append, after_step rfl, List.append_assoc, List.singleton_append]
    cases members with
    | nil => rfl
    | cons m rest =>
      have inside := after_memberTokens (m :: rest) (List.cons_ne_nil _ _) [] true levels ts
      rw [inside]
      rfl

theorem after_itemTokens (items : List Json) (filled : items ≠ []) (before : List Document)
    (levels : List Level) (ts : List Token) :
    after (.value (.array before :: levels)) (itemTokens items ++ .closeArr :: ts) =
      after (.behind (.arr (before.reverse ++ itemDocuments items)) levels) ts := by
  cases items with
  | nil => exact absurd rfl filled
  | cons v rest =>
    cases rest with
    | nil =>
      have value := after_tokens v (.array before :: levels) (.closeArr :: ts)
      rw [after_step rfl, List.reverse_cons] at value
      exact value
    | cons next others =>
      have value := after_tokens v (.array before :: levels)
        (.comma :: (itemTokens (next :: others) ++ .closeArr :: ts))
      have behind := after_itemTokens (next :: others) (List.cons_ne_nil _ _) (v.document :: before)
        levels ts
      have parts : itemTokens (v :: next :: others) =
          v.tokens ++ .comma :: itemTokens (next :: others) := rfl
      rw [after_step rfl, behind, List.reverse_cons, List.append_assoc] at value
      rw [parts, List.append_assoc]
      exact value

theorem after_memberTokens (members : List (String × Json)) (filled : members ≠ [])
    (before : List (Option String × Document)) (first : Bool) (levels : List Level)
    (ts : List Token) :
    after (.key before first levels) (memberTokens members ++ .closeObj :: ts) =
      after (.behind (.obj (before.reverse ++ memberDocuments members)) levels) ts := by
  cases members with
  | nil => exact absurd rfl filled
  | cons m rest =>
    obtain ⟨k, v⟩ := m
    cases rest with
    | nil =>
      have value := after_tokens v (.object before (some k) :: levels) (.closeObj :: ts)
      rw [after_step rfl, List.reverse_cons] at value
      rw [memberTokens, List.cons_append, after_step rfl, List.cons_append, after_step rfl]
      exact value
    | cons next others =>
      have value := after_tokens v (.object before (some k) :: levels)
        (.comma :: (memberTokens (next :: others) ++ .closeObj :: ts))
      have behind := after_memberTokens (next :: others) (List.cons_ne_nil _ _)
        ((some k, v.document) :: before) false levels ts
      have parts : memberTokens ((k, v) :: next :: others) =
          .str (some k) :: .colon :: (v.tokens ++ .comma :: memberTokens (next :: others)) := rfl
      rw [after_step rfl, behind, List.reverse_cons, List.append_assoc] at value
      rw [parts, List.cons_append, after_step rfl, List.cons_append, after_step rfl,
        List.append_assoc]
      exact value

end

end Document

/-- A value that was written is read as what was written. -/
theorem ofText?_render (j : Json) : Document.ofText? j.render = some j.document := by
  have scanned := scan_chars j [] fun c first => by cases first
  have read := Document.after_tokens j [] []
  rw [List.append_nil] at scanned read
  have found : Token.ofText? j.render = some j.tokens := by
    rw [Token.ofText?_eq_scan, render, String.toList_ofList, scanned]
    simp [scan, Token.finish?]
  rw [Document.ofText?, found]
  show Document.ofTokens? j.tokens = some j.document
  rw [Document.ofTokens?, ← Document.after, read]
  rfl

end Telemetry.Json
