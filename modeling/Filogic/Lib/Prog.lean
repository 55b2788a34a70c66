import Mathlib

/-! Sequential programs over an explicit state, with the pre- and postcondition rules that
symbolic execution uses. A program is total: it returns a value and the state it leaves. -/

namespace Filogic.Lib

universe u v w

/-- A program over the state `σ`. -/
def Prog (σ : Type u) (α : Type v) := σ → α × σ

namespace Prog

variable {σ : Type u} {α : Type v} {β : Type w}

def run (prog : Prog σ α) (s : σ) : α × σ := prog s

/-- The value a program returns. -/
def value (prog : Prog σ α) (s : σ) : α := (prog.run s).1

/-- The state a program leaves. -/
def after (prog : Prog σ α) (s : σ) : σ := (prog.run s).2

instance : Monad (Prog.{u, v} σ) where
  pure a := fun s => (a, s)
  bind x f := fun s => match x s with | (a, s') => f a s'

def get : Prog σ σ := fun s => (s, s)

def gets (f : σ → α) : Prog σ α := fun s => (f s, s)

def modify (f : σ → σ) : Prog.{u, v} σ PUnit := fun s => (⟨⟩, f s)

@[simp] theorem run_pure (a : α) (s : σ) : (pure a : Prog σ α).run s = (a, s) := rfl
@[simp] theorem run_get (s : σ) : (get : Prog σ σ).run s = (s, s) := rfl
@[simp] theorem run_gets (f : σ → α) (s : σ) : (gets f).run s = (f s, s) := rfl
@[simp] theorem run_modify (f : σ → σ) (s : σ) :
    (modify f : Prog.{u, v} σ PUnit).run s = (⟨⟩, f s) := rfl

@[simp] theorem run_bind {β : Type v} (x : Prog σ α) (f : α → Prog σ β) (s : σ) :
    (x >>= f).run s = (f (x.run s).1).run (x.run s).2 := rfl

@[simp] theorem run_ite (c : Prop) [Decidable c] (x y : Prog σ α) (s : σ) :
    (if c then x else y).run s = if c then x.run s else y.run s := by
  split_ifs <;> rfl

end Prog

open Prog

variable {σ : Type u} {α : Type v} {β : Type v}

/-- From every state that meets `pre`, the program ends with a result and a state that meet
`post`. -/
def Triple (pre : σ → Prop) (prog : Prog σ α) (post : α → σ → Prop) : Prop :=
  ∀ s, pre s → post (prog.run s).1 (prog.run s).2

namespace Triple

variable {pre : σ → Prop} {post : α → σ → Prop}

theorem pure (a : α) (same : ∀ s, pre s → post a s) :
    Triple pre (Pure.pure a : Prog σ α) post :=
  fun s holds => same s holds

theorem bind {x : Prog σ α} {f : α → Prog σ β} {mid : α → σ → Prop} {post : β → σ → Prop}
    (first : Triple pre x mid) (rest : ∀ a, Triple (mid a) (f a) post) :
    Triple pre (x >>= f) post := by
  intro s holds
  exact rest _ _ (first s holds)

theorem get {post : σ → σ → Prop} (same : ∀ s, pre s → post s s) :
    Triple pre (Prog.get : Prog σ σ) post :=
  fun s holds => same s holds

theorem gets (f : σ → α) (same : ∀ s, pre s → post (f s) s) :
    Triple pre (Prog.gets f) post :=
  fun s holds => same s holds

theorem modify (f : σ → σ) {post : PUnit.{v + 1} → σ → Prop}
    (moved : ∀ s, pre s → post ⟨⟩ (f s)) :
    Triple pre (Prog.modify f) post :=
  fun s holds => moved s holds

theorem weaken {pre' : σ → Prop} {prog : Prog σ α} {post' : α → σ → Prop}
    (triple : Triple pre' prog post') (before : ∀ s, pre s → pre' s)
    (after : ∀ a s, post' a s → post a s) :
    Triple pre prog post :=
  fun s holds => after _ _ (triple s (before s holds))

theorem ite (c : Prop) [Decidable c] {x y : Prog σ α}
    (yes : c → Triple pre x post) (no : ¬c → Triple pre y post) :
    Triple pre (if c then x else y) post := by
  split_ifs with h
  · exact yes h
  · exact no h

theorem both {prog : Prog σ α} {pre' : σ → Prop} {post' : α → σ → Prop}
    (one : Triple pre prog post) (two : Triple pre' prog post') :
    Triple (fun s => pre s ∧ pre' s) prog (fun a s => post a s ∧ post' a s) :=
  fun s holds => ⟨one s holds.1, two s holds.2⟩

end Triple

/-- A relation that every run of the program keeps between its first and last state. -/
def Moves (rel : σ → σ → Prop) (prog : Prog σ α) : Prop :=
  ∀ s, rel s (prog.run s).2

namespace Moves

variable {rel : σ → σ → Prop}

theorem pure (refl : ∀ s, rel s s) (a : α) : Moves rel (Pure.pure a : Prog σ α) :=
  fun s => refl s

theorem get (refl : ∀ s, rel s s) : Moves rel (Prog.get : Prog σ σ) := fun s => refl s

theorem gets (refl : ∀ s, rel s s) (f : σ → α) : Moves rel (Prog.gets f) := fun s => refl s

theorem modify (f : σ → σ) (moved : ∀ s, rel s (f s)) :
    Moves rel (Prog.modify f : Prog.{u, v} σ PUnit) := fun s => moved s

theorem bind (trans : ∀ a b c, rel a b → rel b c → rel a c) {x : Prog σ α} {f : α → Prog σ β}
    (first : Moves rel x) (rest : ∀ a, Moves rel (f a)) : Moves rel (x >>= f) :=
  fun s => trans _ _ _ (first s) (rest _ _)

theorem ite (c : Prop) [Decidable c] {x y : Prog σ α} (yes : c → Moves rel x)
    (no : ¬c → Moves rel y) : Moves rel (if c then x else y) := by
  split_ifs with h
  · exact yes h
  · exact no h

end Moves

/-- Two runs from related states return the same and leave related states. -/
def Agrees (rel : σ → σ → Prop) (prog : Prog σ α) : Prop :=
  ∀ s s', rel s s' → (prog.run s).1 = (prog.run s').1 ∧ rel (prog.run s).2 (prog.run s').2

namespace Agrees

variable {rel : σ → σ → Prop}

theorem pure (a : α) : Agrees rel (Pure.pure a : Prog σ α) := fun _ _ related => ⟨rfl, related⟩

theorem modify (f : σ → σ) (kept : ∀ s s', rel s s' → rel (f s) (f s')) :
    Agrees rel (Prog.modify f : Prog.{u, v} σ PUnit) :=
  fun s s' related => ⟨rfl, kept s s' related⟩

theorem bind {x : Prog σ α} {f : α → Prog σ β} (first : Agrees rel x)
    (rest : ∀ a, Agrees rel (f a)) : Agrees rel (x >>= f) := by
  intro s s' related
  obtain ⟨same, related'⟩ := first s s' related
  simp only [run_bind, same]
  exact rest _ _ _ related'

/-- What a program sees of the state may differ where the rest does not depend on it. -/
theorem view {γ : Type v} {f : σ → γ} {k : γ → Prog σ α}
    (same : ∀ s s', rel s s' → k (f s) = k (f s')) (rest : ∀ a, Agrees rel (k a)) :
    Agrees rel (Prog.gets f >>= k) := by
  intro s s' related
  simp only [run_bind, run_gets, same s s' related]
  exact rest _ _ _ related

theorem ite (c : Prop) [Decidable c] {x y : Prog σ α} (yes : Agrees rel x)
    (no : Agrees rel y) : Agrees rel (if c then x else y) := by
  split_ifs
  · exact yes
  · exact no

end Agrees

end Filogic.Lib
