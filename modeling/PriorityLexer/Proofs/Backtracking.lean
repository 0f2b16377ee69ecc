import Mathlib.Algebra.Order.Group.Nat
import Mathlib.Data.List.Basic
import Mathlib.Data.Nat.Init
import PriorityLexer.Text

namespace PriorityLexer

inductive Regex where
  /-- One character of a class. -/
  | one (accepts : Char → Bool)
  /-- Nothing at all. -/
  | empty
  | chain (first second : Regex)
  | either (first second : Regex)
  | star (body : Regex)
  /-- Takes nothing, and only where the body does not match. -/
  | notAhead (body : Regex)

namespace Regex

/-- What is left after each path through any number of rounds, the longest paths first. A round that
takes nothing is not repeated. -/
def rounds (body : Text → List Text) (text : Text) : List Text :=
  ((body text).flatMap fun rest =>
    if _ : rest.length < text.length then rounds body rest else []) ++ [text]
termination_by text.length

/-- What is left of the text after each successful path, in the order in which they are tried. -/
def paths : Regex → Text → List Text
  | one _, [] => []
  | one accepts, c :: rest => if accepts c then [rest] else []
  | empty, text => [text]
  | chain first second, text => (first.paths text).flatMap second.paths
  | either first second, text => first.paths text ++ second.paths text
  | star body, text => rounds body.paths text
  | notAhead body, text => if (body.paths text).isEmpty then [text] else []

def plus (body : Regex) : Regex := chain body (star body)

def optional (body : Regex) : Regex := either body empty

def length? (pattern : Regex) (text : Text) : Option Nat :=
  (pattern.paths text).head?.map fun rest => text.length - rest.length

/-- Where a match at `position` ends. A position outside the source is moved to its nearer end. -/
def endAt? (pattern : Regex) (source : Text) (position : Int) : Option Nat :=
  let start := min position.toNat source.length
  (pattern.length? (source.drop start)).map (start + ·)

def consumes : Regex → Bool
  | one _ => true
  | empty => false
  | chain first second => first.consumes || second.consumes
  | either first second => first.consumes && second.consumes
  | star _ => false
  | notAhead _ => false

theorem length_le_of_mem_rounds {body : Text → List Text} {text rest : Text}
    (h : rest ∈ rounds body text) : rest.length ≤ text.length := by
  induction hn : text.length using Nat.strong_induction_on generalizing text with
  | _ n ih =>
    rw [rounds, List.mem_append, List.mem_flatMap, List.mem_singleton] at h
    rcases h with ⟨next, -, mem⟩ | rfl
    · split at mem
      · rename_i shorter
        have := ih next.length (by omega) mem rfl
        omega
      · cases mem
    · omega

theorem length_le_of_mem_paths {pattern : Regex} {text rest : Text}
    (h : rest ∈ pattern.paths text) :
    rest.length ≤ text.length := by
  induction pattern generalizing text rest with
  | one accepts =>
    cases text with
    | nil => cases h
    | cons c text =>
      simp only [paths, List.mem_ite_nil_right, List.mem_singleton] at h
      simp [h.2]
  | empty => simp_all [paths]
  | chain first second first_ih second_ih =>
    obtain ⟨next, mem_first, mem_second⟩ := List.mem_flatMap.1 h
    exact (second_ih mem_second).trans (first_ih mem_first)
  | either first second first_ih second_ih =>
    rcases List.mem_append.1 h with mem | mem
    · exact first_ih mem
    · exact second_ih mem
  | star body => exact length_le_of_mem_rounds h
  | notAhead body =>
    simp only [paths, List.mem_ite_nil_right, List.mem_singleton] at h
    exact Nat.le_of_eq (congrArg List.length h.2)

theorem length_lt_of_mem_paths {pattern : Regex} (consuming : pattern.consumes = true)
    {text rest : Text} (h : rest ∈ pattern.paths text) : rest.length < text.length := by
  induction pattern generalizing text rest with
  | one accepts =>
    cases text with
    | nil => cases h
    | cons c text =>
      simp only [paths, List.mem_ite_nil_right, List.mem_singleton] at h
      simp [h.2]
  | chain first second first_ih second_ih =>
    obtain ⟨next, mem_first, mem_second⟩ := List.mem_flatMap.1 h
    rcases Bool.or_eq_true_iff.1 consuming with first_consumes | second_consumes
    · exact (length_le_of_mem_paths mem_second).trans_lt (first_ih first_consumes mem_first)
    · exact (second_ih second_consumes mem_second).trans_le (length_le_of_mem_paths mem_first)
  | either first second first_ih second_ih =>
    obtain ⟨first_consumes, second_consumes⟩ := Bool.and_eq_true_iff.1 consuming
    rcases List.mem_append.1 h with mem | mem
    · exact first_ih first_consumes mem
    · exact second_ih second_consumes mem
  | empty | star | notAhead => cases consuming

theorem star_paths {body : Regex} (consuming : body.consumes = true) (text : Text) :
    (star body).paths text = (body.paths text).flatMap (star body).paths ++ [text] := by
  change rounds body.paths text = (body.paths text).flatMap (rounds body.paths) ++ [text]
  rw [rounds]
  congr 1
  apply List.flatMap_congr
  intro rest mem
  simp [length_lt_of_mem_paths consuming mem]

theorem star_chain_paths {body : Regex} (consuming : body.consumes = true) (next : Regex)
    (text : Text) :
    (chain (star body) next).paths text =
      (body.paths text).flatMap (chain (star body) next).paths ++ next.paths text := by
  change ((star body).paths text).flatMap next.paths = _
  rw [star_paths consuming, List.flatMap_append, List.flatMap_assoc]
  simp only [List.flatMap_singleton]
  rfl

end Regex

end PriorityLexer
