/-
This file shows how a pattern without alternatives, classes and directories is read.
-/

import ChangeImpact.Proofs.Glob.Component
import Mathlib.Data.List.Induction

namespace ChangeImpact.Glob

/-- These characters open, close or escape something, so that they do not stand for themselves. -/
def reserved : List Char :=
  ['[', ']', '\x7b', '\x7d', '\\']

/-- All characters of the pattern are free to use, and two stars alone are none of its parts. -/
structure IsPlain (pattern : List Char) : Prop where
  ordinary : ∀ character ∈ pattern, character ∉ reserved
  noDirectories : ['*', '*'] ∉ pattern.splitOn '/'

instance (pattern : List Char) : Decidable (IsPlain pattern) :=
  decidable_of_iff (pattern.all (· ∉ reserved) ∧ ['*', '*'] ∉ pattern.splitOn '/')
    ⟨fun ⟨free, apart⟩ => ⟨by simpa using free, apart⟩,
      fun plain => ⟨by simpa using plain.ordinary, plain.noDirectories⟩⟩

/-- The pieces of what has been read, in reverse. -/
def piecesOf (read : List Char) : List Piece :=
  (read.map Piece.ofPlain).reverse

/-- The states in which a plain pattern can be left by what has been read of it. Up to two stars at
the end wait for what comes next. -/
inductive Reads : List Char → State → Prop where
  | plain (read : List Char) : Reads read ⟨.plain, read.getLast?, piecesOf read, []⟩
  | star (read : List Char) :
    Reads (read ++ ['*']) ⟨.star read.getLast?, some '*', piecesOf read, []⟩
  | doubleStar (read : List Char) :
    Reads (read ++ ['*', '*']) ⟨.doubleStar read.getLast?, some '*', piecesOf read, []⟩

section Step

variable {read : List Char} {state : State} {character : Char}

theorem piecesOf_snoc : piecesOf (read ++ [character]) = .ofPlain character :: piecesOf read := by
  simp [piecesOf]

/-- Two stars that are no part on their own come after a character other than a slash. -/
theorem noDirectories_of_apart (mode : Mode) (previous : Option Char)
    (apart : ['*', '*'] ∉ (read ++ ['*', '*']).splitOn '/') :
    (piecesOf read).isEmpty = false ∧
      State.opensDirectories ⟨mode, previous, piecesOf read, []⟩ read.getLast? = false := by
  cases read using List.reverseRecOn with
  | nil => exact absurd (by decide) apart
  | append_singleton read last =>
      have noSlash : last ≠ '/' := by
        rintro rfl
        apply apart
        rw [List.append_assoc, List.singleton_append, List.splitOn_append_cons_self]
        exact List.mem_append_right _ (by decide)
      simp [piecesOf_snoc, State.opensDirectories, noSlash]

/-- Outside of alternatives, a character other than a star becomes its own piece. -/
theorem plainStep_eq_push (ungrouped : state.groups = []) (ordinary : character ∉ reserved)
    (noStar : character ≠ '*') :
    plainStep state character = .ok (state.push (.ofPlain character)) := by
  unfold plainStep Piece.ofPlain
  split
  · rfl
  · exact absurd rfl noStar
  · exact absurd (by decide) ordinary
  · exact absurd (by decide) ordinary
  · exact absurd (by decide) ordinary
  · rw [ungrouped]
    rfl
  · exact absurd (by decide) ordinary
  next noQuestion _ _ _ _ _ _ =>
    rw [if_neg noStar, if_neg noQuestion]

/-- A star waits for another one, and every other character is a piece at once. -/
theorem reads_plainStep (ordinary : character ∉ reserved) :
    ∃ next, plainStep ⟨.plain, read.getLast?, piecesOf read, []⟩ character = .ok next ∧
      Reads (read ++ [character]) { next with previous := some character } := by
  by_cases isStar : character = '*'
  · subst isStar
    exact ⟨_, rfl, .star read⟩
  · refine ⟨_, plainStep_eq_push rfl ordinary isStar, ?_⟩
    have pushed := Reads.plain (read ++ [character])
    rwa [piecesOf_snoc, List.getLast?_concat] at pushed

theorem pushStars_piecesOf {mode : Mode} {previous : Option Char} :
    State.pushStars ⟨mode, previous, piecesOf read, []⟩ =
      ⟨.plain, previous, piecesOf (read ++ ['*', '*']), []⟩ := by
  simp [State.pushStars, State.push, piecesOf, Piece.ofPlain]

/-- What comes after two stars is read as usual, unless they are a part on their own. -/
theorem doubleStarStep_eq_plainStep {previous : Option Char}
    (apart : character = '/' → ['*', '*'] ∉ (read ++ ['*', '*']).splitOn '/') :
    doubleStarStep ⟨.doubleStar read.getLast?, previous, piecesOf read, []⟩ read.getLast?
        character =
      plainStep ⟨.plain, previous, piecesOf (read ++ ['*', '*']), []⟩ character := by
  rw [doubleStarStep, pushStars_piecesOf]
  by_cases isSlash : character = '/'
  · obtain ⟨filled, closed⟩ :=
      noDirectories_of_apart (.doubleStar read.getLast?) previous (apart isSlash)
    simp only [filled, closed, Bool.not_false, Bool.false_eq_true, if_true, if_false]
  · simp only [isSlash, if_false, List.isEmpty_nil, Bool.not_true, Bool.false_eq_true, and_false,
      ite_self]

/-- One character takes a state that what was read can leave to one that it leaves with the
character. Only a slash can make a part of two stars, so that it needs to be looked at. -/
theorem reads_step (reads : Reads read state) (ordinary : character ∉ reserved)
    (apart : character = '/' → ['*', '*'] ∉ read.splitOn '/') :
    ∃ next, step state character = .ok next ∧ Reads (read ++ [character]) next := by
  suffices ahead : ∃ next, modeStep state character = .ok next ∧
      Reads (read ++ [character]) { next with previous := some character } by
    obtain ⟨next, stepped, readsNext⟩ := ahead
    exact ⟨_, by rw [step, stepped]; rfl, readsNext⟩
  have pushed := @reads_plainStep read character ordinary
  cases reads with
  | plain => exact pushed
  | star read =>
    simp only [modeStep]
    split_ifs with isStar
    · subst isStar
      exact ⟨_, rfl, by simpa using Reads.doubleStar read⟩
    · rwa [piecesOf_snoc, List.getLast?_concat] at pushed
  | doubleStar read =>
    simp only [modeStep, doubleStarStep_eq_plainStep apart]
    rwa [List.getLast?_append] at pushed

theorem reads_foldlM {rest : List Char} (reads : Reads read state)
    (plain : IsPlain (read ++ rest)) :
    ∃ last, rest.foldlM step state = .ok last ∧ Reads (read ++ rest) last := by
  induction rest generalizing read state with
  | nil => exact ⟨state, rfl, by simpa using reads⟩
  | cons character rest ih =>
      have apart : character = '/' → ['*', '*'] ∉ read.splitOn '/' := by
        rintro rfl part
        apply plain.noDirectories
        rw [List.splitOn_append_cons_self]
        exact List.mem_append_left _ part
      obtain ⟨next, stepped, readsNext⟩ := reads_step reads (plain.ordinary _ (by simp)) apart
      rw [List.append_cons] at plain ⊢
      obtain ⟨last, run, readsLast⟩ := ih readsNext plain
      exact ⟨last, by rw [List.foldlM_cons, stepped]; exact run, readsLast⟩

/-- At the end of a pattern the stars that wait become pieces. -/
theorem finish_reads (reads : Reads read state) (apart : ['*', '*'] ∉ read.splitOn '/') :
    finish state = .ok (read.map Piece.ofPlain) := by
  have pieces (mode : Mode) (previous : Option Char) :
      (State.mk mode previous (piecesOf read) []).current.reverse = read.map Piece.ofPlain :=
    List.reverse_reverse _
  cases reads with
  | plain => exact congrArg Except.ok (pieces .plain read.getLast?)
  | star read =>
    rw [← pieces .plain (some '*'), piecesOf_snoc]
    rfl
  | doubleStar read =>
    obtain ⟨filled, closed⟩ :=
      noDirectories_of_apart (.doubleStar read.getLast?) (some '*') apart
    rw [finish]
    simp only [filled, closed, Bool.false_eq_true, if_false, pushStars_piecesOf]
    exact congrArg Except.ok (pieces .plain (some '*'))

end Step

/-- In a plain pattern each character is a piece of its own. -/
theorem pieces?_plain {pattern : List Char} (plain : IsPlain pattern) :
    pieces? pattern = .ok (pattern.map Piece.ofPlain) := by
  obtain ⟨last, run, reads⟩ := reads_foldlM (.plain []) plain
  have initial : State.initial = ⟨.plain, [].getLast?, piecesOf [], []⟩ := rfl
  rw [pieces?, initial, run]
  exact finish_reads reads plain.noDirectories

end ChangeImpact.Glob
