/-
# `Tavernmx.Shared.Util` — splitting a line into tokens

`tokenize_string` goes through its input once, with a token that is not finished
yet.  A delimiter finishes it, unless it is empty; any other character is added to
it; and what is left at the end is a token if it is not empty.

Nothing is said there about leading, repeated or trailing delimiters.  They are
all covered by one fact about the loop: with a pending token, what it still
appends are the maximal runs of that token followed by the rest of the input
(`tokenLoop_spec`).
-/
import Mathlib.Data.String.Basic
import Tavernmx.Lib.MaximalRuns

namespace Tavernmx

/-- `str_tolower`, with `tolower` of the C locale. -/
def strToLower (s : String) : String := s.map Char.toLower

/-- The loop of `tokenize_string`: the pending token, and the output. -/
def tokenLoop (delimiter : Char) : List Char → String → List String → String × List String
  | [], token, output => (token, output)
  | c :: rest, token, output =>
    if c = delimiter && !token.isEmpty then tokenLoop delimiter rest "" (output ++ [token])
    else if c ≠ delimiter then tokenLoop delimiter rest (token.push c) output
    else tokenLoop delimiter rest token output

/-- The pending token, if there is one. -/
def flushToken : String × List String → List String
  | (token, output) => if !token.isEmpty then output ++ [token] else output

/-- `tokenize_string`: the output with the tokens appended. -/
def tokenizeString (input : String) (delimiter : Char) (output : List String) : List String :=
  if input.isEmpty then output else flushToken (tokenLoop delimiter input.toList "" output)

/-! ## The loop -/

variable {delimiter c : Char} {rest : List Char} {token : String} {output : List String}

theorem tokenLoop_pushes (h : c ≠ delimiter) :
    tokenLoop delimiter (c :: rest) token output
      = tokenLoop delimiter rest (token.push c) output := by
  simp [tokenLoop, h]

theorem tokenLoop_finishes (h : token ≠ "") :
    tokenLoop delimiter (delimiter :: rest) token output
      = tokenLoop delimiter rest "" (output ++ [token]) := by
  simp [tokenLoop, h]

theorem tokenLoop_skips :
    tokenLoop delimiter (delimiter :: rest) "" output = tokenLoop delimiter rest "" output := by
  simp [tokenLoop]

theorem toList_ne_nil (h : token ≠ "") : token.toList ≠ [] :=
  fun hnil => h (String.toList_eq_nil_iff.mp hnil)

/-- **What the loop still appends**: the runs of the pending token and the rest together. -/
theorem tokenLoop_spec (rest : List Char) (token : String) (output : List String)
    (htoken : delimiter ∉ token.toList) :
    ∃ tokens, flushToken (tokenLoop delimiter rest token output) = output ++ tokens ∧
      MaximalRuns delimiter (token.toList ++ rest) (tokens.map String.toList) := by
  induction rest generalizing token output with
  | nil =>
      rw [List.append_nil]
      by_cases hempty : token = ""
      · subst hempty
        refine ⟨[], ?_, .nil⟩
        rw [List.append_nil]
        rfl
      · exact ⟨[token], by simp [tokenLoop, flushToken, hempty],
          .of_run (toList_ne_nil hempty) htoken⟩
  | cons c rest ih =>
      by_cases hc : c = delimiter
      · subst hc
        by_cases hempty : token = ""
        · subst hempty
          obtain ⟨tokens, hout, hruns⟩ := ih "" output htoken
          rw [tokenLoop_skips]
          exact ⟨tokens, hout, hruns.cons_delimiter⟩
        · obtain ⟨tokens, hout, hruns⟩ := ih "" (output ++ [token]) List.not_mem_nil
          rw [tokenLoop_finishes hempty]
          refine ⟨token :: tokens, ?_, ?_⟩
          · rw [hout, List.append_assoc]
            rfl
          · exact .append_run (toList_ne_nil hempty) htoken
              (fun d hd => (Option.some.inj hd).symm) hruns.cons_delimiter
      · have hpushed : delimiter ∉ (token.push c).toList := by
          rw [String.toList_push, List.mem_append, List.mem_singleton]
          exact fun h => h.elim htoken fun heq => hc heq.symm
        obtain ⟨tokens, hout, hruns⟩ := ih (token.push c) output hpushed
        rw [tokenLoop_pushes hc]
        refine ⟨tokens, hout, ?_⟩
        rwa [String.toList_push, List.append_assoc] at hruns

/-- `tokenize_string` appends the maximal runs of its input. -/
theorem tokenizeString_spec (input : String) (delimiter : Char) (output : List String) :
    ∃ tokens, tokenizeString input delimiter output = output ++ tokens ∧
      MaximalRuns delimiter input.toList (tokens.map String.toList) := by
  rw [tokenizeString]
  split
  case isTrue hempty =>
    obtain rfl := String.isEmpty_iff.mp hempty
    exact ⟨[], (List.append_nil output).symm, .nil⟩
  case isFalse => exact tokenLoop_spec input.toList "" output List.not_mem_nil

/-- **The tokens are the maximal runs of characters other than the delimiter**, behind
the unchanged output; and what this says about them one by one. -/
theorem tokenizeString_splits (input : String) (delimiter : Char) (output : List String) :
    ∃ tokens, tokenizeString input delimiter output = output ++ tokens ∧
      (∀ runs, MaximalRuns delimiter input.toList runs ↔ runs = tokens.map String.toList) ∧
      (∀ token ∈ tokens, token ≠ "" ∧ delimiter ∉ token.toList) ∧
      (tokens.map String.toList).flatten = input.toList.filter (· ≠ delimiter) ∧
      (tokens ≠ [] ↔ ∃ c ∈ input.toList, c ≠ delimiter) ∧
      ∀ first, tokens.head? = some first →
        first.toList.head? = input.toList.find? (· ≠ delimiter) := by
  obtain ⟨tokens, hout, hruns⟩ := tokenizeString_spec input delimiter output
  refine ⟨tokens, hout, fun runs => ⟨fun hother => hother.unique hruns, ?_⟩, ?_,
    hruns.flatten_eq, ?_, ?_⟩
  · rintro rfl
    exact hruns
  · intro token htoken
    obtain ⟨hne, hnot⟩ := hruns.of_mem (List.mem_map_of_mem htoken)
    exact ⟨fun hempty => hne (String.toList_eq_nil_iff.mpr hempty), hnot⟩
  · rw [← hruns.ne_nil_iff, ne_eq, ne_eq, List.map_eq_nil_iff]
  · intro first hfirst
    cases tokens with
    | nil => cases hfirst
    | cons token tokens =>
        obtain rfl := Option.some.inj hfirst
        exact hruns.head?_head?

example : tokenizeString "  /create_room   den " ' ' ["old"] = ["old", "/create_room", "den"] := by
  decide +kernel

end Tavernmx
