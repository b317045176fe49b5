import ControlCodegen.Text.Marks
import Mathlib.Data.List.Basic
import Mathlib.Data.List.TakeWhile

/-!
# `Text.Reader`: what readers take

* `bind_iff`, `pure_iff`, `satisfy_iff`, `char_iff`, `literal_iff` : what a reader takes is the front of the text.
* `nameOf_iff` : a name is read as far as it goes.
-/

namespace ControlCodegen.Text

set_option autoImplicit false

variable {α β : Type} {cs rest : List Char}

namespace Reader

theorem bind_iff {p : Reader α} {f : α → Reader β} {b : β} :
    (p >>= f) cs = some (b, rest) ↔ ∃ a r, p cs = some (a, r) ∧ f a r = some (b, rest) := by
  constructor
  · intro h
    obtain ⟨⟨a, r⟩, hp, hf⟩ := Option.bind_eq_some_iff.1 h
    exact ⟨a, r, hp, hf⟩
  · rintro ⟨a, r, hp, hf⟩
    exact Option.bind_eq_some_iff.2 ⟨(a, r), hp, hf⟩

theorem pure_iff {a b : α} : (pure a : Reader α) cs = some (b, rest) ↔ a = b ∧ cs = rest := by
  constructor
  · rintro ⟨⟩
    exact ⟨rfl, rfl⟩
  · rintro ⟨rfl, rfl⟩
    rfl

theorem satisfy_iff {ok : Char → Bool} {c : Char} : satisfy ok cs = some (c, rest) ↔ cs = c :: rest ∧ ok c = true := by
  cases cs with
  | nil => simp [satisfy]
  | cons d r =>
    by_cases hd : ok d = true
    · simp only [satisfy, if_pos hd, Option.some.injEq, Prod.mk.injEq, List.cons.injEq]
      exact ⟨fun h => ⟨h, h.1 ▸ hd⟩, fun h => h.1⟩
    · simp only [satisfy, if_neg hd, List.cons.injEq]
      refine iff_of_false (by simp) fun h => hd ?_
      rw [h.1.1]
      exact h.2

theorem char_iff {c : Char} {u : Unit} : char c cs = some (u, rest) ↔ cs = c :: rest := by
  unfold char
  simp only [bind_iff, satisfy_iff, pure_iff, beq_iff_eq, true_and]
  constructor
  · rintro ⟨_, _, ⟨rfl, rfl⟩, rfl⟩
    rfl
  · rintro rfl
    exact ⟨c, rest, ⟨rfl, rfl⟩, rfl⟩

theorem literal_iff {word : List Char} {u : Unit} : literal word cs = some (u, rest) ↔ cs = word ++ rest := by
  unfold literal
  simp [eq_comm]

theorem takeWhile_iff {ok : Char → Bool} {ds : List Char} :
    takeWhile ok cs = some (ds, rest) ↔
      cs = ds ++ rest ∧ (∀ d ∈ ds, ok d = true) ∧ ∀ c r, rest = c :: r → ok c = false := by
  unfold takeWhile
  simp only [Option.some.injEq, Prod.mk.injEq]
  constructor
  · rintro ⟨rfl, rfl⟩
    refine ⟨(List.takeWhile_append_dropWhile).symm, fun d hd => List.mem_takeWhile_imp hd, fun c r hr => ?_⟩
    have hhead := List.head?_dropWhile_not ok cs
    rw [hr] at hhead
    simpa using hhead
  · rintro ⟨rfl, hds, hrest⟩
    rw [List.takeWhile_append_of_pos hds, List.dropWhile_append_of_pos hds]
    cases rest with
    | nil => simp
    | cons c r =>
      have hc : ¬ok c = true := by simp [hrest c r rfl]
      rw [List.takeWhile_cons_of_neg hc, List.dropWhile_cons_of_neg hc, List.append_nil]
      exact ⟨rfl, rfl⟩

end Reader

/-- A name is read as far as it goes. -/
theorem nameOf_iff {start inside : Char → Bool} {name : String} : nameOf start inside cs = some (name, rest) ↔
    ∃ c ds, name = String.ofList (c :: ds) ∧ start c = true ∧ (∀ d ∈ ds, inside d = true) ∧ cs = c :: (ds ++ rest) ∧
      ∀ d r, rest = d :: r → inside d = false := by
  unfold nameOf
  simp only [Reader.bind_iff, Reader.satisfy_iff, Reader.takeWhile_iff, Reader.pure_iff]
  constructor
  · rintro ⟨c, _, ⟨rfl, hstart⟩, ds, _, ⟨rfl, hinside, hrest⟩, rfl, rfl⟩
    exact ⟨c, ds, rfl, hstart, hinside, rfl, hrest⟩
  · rintro ⟨c, ds, rfl, hstart, hinside, rfl, hrest⟩
    exact ⟨c, ds ++ rest, ⟨rfl, hstart⟩, ds, rest, ⟨rfl, hinside, hrest⟩, rfl, rfl⟩

end ControlCodegen.Text
