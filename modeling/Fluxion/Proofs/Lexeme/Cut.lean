import Fluxion.Proofs.Lexeme.Scans
import Mathlib.Data.List.Chain

/-!
Lines cut into pieces. A piece is a blank, a key character, a run of identifier
characters or a character of no class, and the runs of a cut are as long as they can
be. Main statement: every line has exactly one cut.
-/

namespace Fluxion

open Text

inductive Piece
  | blank (c : Char)
  | key (c : Char)
  | run (text : List Char)
  /-- A character that may stand nowhere. -/
  | stray (c : Char)
  deriving DecidableEq, Repr

namespace Piece

def text : Piece → List Char
  | blank c | key c | stray c => [c]
  | run text => text

def Proper : Piece → Prop
  | blank c => isBlank c = true
  | key c => isKey c = true
  | run text => text ≠ [] ∧ ∀ c ∈ text, isIdentifierChar c = true
  | stray c => isBlank c = false ∧ isKey c = false ∧ isIdentifierChar c = false

def isRun : Piece → Bool
  | run _ => true
  | _ => false

end Piece

/-- The pieces make up the line, and no run could be longer. -/
structure Cut (line : List Char) (pieces : List Piece) : Prop where
  covers : pieces.flatMap Piece.text = line
  proper : ∀ piece ∈ pieces, piece.Proper
  maximal : pieces.IsChain fun piece next => ¬ (piece.isRun = true ∧ next.isRun = true)

/-- The pieces of a line, the first character last. -/
def cut : List Char → List Piece
  | [] => []
  | c :: rest =>
      if isBlank c then .blank c :: cut rest
      else if isKey c then .key c :: cut rest
      else if isIdentifierChar c then
        match cut rest with
        | .run text :: pieces => .run (c :: text) :: pieces
        | pieces => .run [c] :: pieces
      else .stray c :: cut rest

def StartsNoRun (pieces : List Piece) : Prop := ∀ piece ∈ pieces.head?, piece.isRun = false

theorem cut_blank {c : Char} (blank : isBlank c = true) (rest : List Char) :
    cut (c :: rest) = .blank c :: cut rest := by
  rw [cut, if_pos blank]

theorem cut_key {c : Char} (key : isKey c = true) (rest : List Char) :
    cut (c :: rest) = .key c :: cut rest := by
  rw [cut, if_neg (by simp [Scanner.not_blank_of_key key]), if_pos key]

theorem cut_stray {c : Char} (stray : (Piece.stray c).Proper) (rest : List Char) :
    cut (c :: rest) = .stray c :: cut rest := by
  obtain ⟨blank, key, identifier⟩ := stray
  rw [cut, if_neg (by simp [blank]), if_neg (by simp [key]), if_neg (by simp [identifier])]

theorem cut_run {text rest : List Char} (proper : (Piece.run text).Proper)
    (ends : StartsNoRun (cut rest)) : cut (text ++ rest) = .run text :: cut rest := by
  obtain ⟨nonempty, members⟩ := proper
  induction text with
  | nil => exact absurd rfl nonempty
  | cons c text induction =>
      have member := members c (by simp)
      have blank : ¬ isBlank c = true := by simp [Scanner.not_blank_of_identifier_char member]
      have key : ¬ isKey c = true := by simp [Scanner.not_key_of_identifier_char member]
      rw [List.cons_append, cut, if_neg blank, if_neg key, if_pos member]
      cases text with
      | nil =>
          rw [List.nil_append]
          split
          · rename_i text pieces starts
            rw [starts] at ends
            exact absurd (ends (.run text) rfl) (by simp [Piece.isRun])
          · rfl
      | cons d text =>
          rw [induction (by simp) fun e inside => members e (List.mem_cons_of_mem c inside)]

theorem starts_no_run_of_chain {text : List Char} {pieces : List Piece}
    (maximal : (Piece.run text :: pieces).IsChain
      fun piece next => ¬ (piece.isRun = true ∧ next.isRun = true)) : StartsNoRun pieces := by
  cases pieces with
  | nil => exact nofun
  | cons next pieces =>
      intro piece first
      cases first
      simpa [Piece.isRun] using (List.isChain_cons_cons.1 maximal).1

theorem Cut.unique {line : List Char} {pieces : List Piece} (isCut : Cut line pieces) :
    pieces = cut line := by
  obtain ⟨rfl, proper, maximal⟩ := isCut
  induction pieces with
  | nil => rfl
  | cons piece pieces induction =>
      have rest := induction (fun other inside => proper other (List.mem_cons_of_mem piece inside))
        maximal.of_cons
      have first := proper piece (by simp)
      rw [List.flatMap_cons]
      cases piece with
      | blank c => exact (congrArg _ rest).trans (cut_blank first _).symm
      | key c => exact (congrArg _ rest).trans (cut_key first _).symm
      | stray c => exact (congrArg _ rest).trans (cut_stray first _).symm
      | run text =>
          have ends := starts_no_run_of_chain maximal
          rw [rest] at ends
          exact (congrArg _ rest).trans (cut_run first ends).symm

theorem Cut.cons {line : List Char} {pieces : List Piece} (isCut : Cut line pieces)
    (piece : Piece) (proper : piece.Proper)
    (ends : piece.isRun = true → StartsNoRun pieces) :
    Cut (piece.text ++ line) (piece :: pieces) where
  covers := by rw [List.flatMap_cons, isCut.covers]
  proper := List.forall_mem_cons.2 ⟨proper, isCut.proper⟩
  maximal := by
    refine List.isChain_cons.2 ⟨?_, isCut.maximal⟩
    rintro next first ⟨run, runs⟩
    rw [ends run next first] at runs
    cases runs

theorem cut_cuts (line : List Char) : Cut line (cut line) := by
  induction line with
  | nil => exact ⟨rfl, nofun, .nil⟩
  | cons c rest induction =>
      by_cases blank : isBlank c = true
      · rw [cut_blank blank]
        exact induction.cons (.blank c) blank nofun
      by_cases key : isKey c = true
      · rw [cut_key key]
        exact induction.cons (.key c) key nofun
      by_cases member : isIdentifierChar c = true
      · rw [cut, if_neg blank, if_neg key, if_pos member]
        split
        · rename_i text pieces starts
          rw [starts] at induction
          obtain ⟨covers, proper, maximal⟩ := induction
          refine ⟨by rw [← covers]; rfl, List.forall_mem_cons.2 ⟨?_, ?_⟩, ?_⟩
          · have inner := (proper (.run text) (by simp)).2
            exact ⟨by simp, List.forall_mem_cons.2 ⟨member, inner⟩⟩
          · exact fun piece inside => proper piece (List.mem_cons_of_mem _ inside)
          · exact List.isChain_cons.2 (List.isChain_cons.1 maximal)
        · rename_i other
          refine induction.cons (.run [c]) ⟨by simp, by simpa using member⟩ fun _ => ?_
          intro piece first
          cases piece with
          | run text =>
              obtain ⟨pieces, starts⟩ := List.head?_eq_some_iff.1 first
              exact absurd starts (other text pieces)
          | _ => rfl
      · simp only [Bool.not_eq_true] at blank key member
        rw [cut_stray ⟨blank, key, member⟩]
        exact induction.cons (.stray c) ⟨blank, key, member⟩ nofun

/-- Every line has one cut. -/
theorem cut_iff {line : List Char} {pieces : List Piece} : Cut line pieces ↔ pieces = cut line :=
  ⟨Cut.unique, fun same => same ▸ cut_cuts line⟩

end Fluxion
