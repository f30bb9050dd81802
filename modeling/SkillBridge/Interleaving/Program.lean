import Mathlib.Data.Nat.Notation

set_option autoImplicit false

namespace SkillBridge.Interleaving

/-- The atomic operations a program may ask its environment for, with the type of their results. -/
structure Signature where
  Op : Type
  Res : Op → Type
  Err : Type

abbrev Signature.Reply (S : Signature) (o : S.Op) : Type := Except S.Err (S.Res o)

/-- Programs with exceptions. Between two calls other programs may run, within one call none does. -/
inductive Prog (S : Signature) (α : Type) where
  | ret (a : α)
  | throw (e : S.Err)
  | call (o : S.Op) (k : S.Reply o → Prog S α)

namespace Prog

variable {S : Signature} {α β : Type}

def bind : Prog S α → (α → Prog S β) → Prog S β
  | ret a, f => f a
  | throw e, _ => throw e
  | call o k, f => call o fun r => (k r).bind f

def tryCatch : Prog S α → (S.Err → Prog S α) → Prog S α
  | ret a, _ => ret a
  | throw e, h => h e
  | call o k, h => call o fun r => (k r).tryCatch h

instance : Monad (Prog S) where
  pure := ret
  bind := bind

instance : MonadExceptOf S.Err (Prog S) where
  throw := throw
  tryCatch := tryCatch

def perform (o : S.Op) : Prog S (S.Res o) :=
  call o fun
    | .ok r => ret r
    | .error e => throw e

@[simp] theorem pure_def (a : α) : (pure a : Prog S α) = ret a := rfl

@[simp] theorem throw_def (e : S.Err) : (MonadExcept.throw e : Prog S α) = throw e := rfl

@[simp] theorem throwThe_def (e : S.Err) : (throwThe S.Err e : Prog S α) = throw e := rfl

@[simp] theorem ret_bind (a : α) (f : α → Prog S β) : ret a >>= f = f a := rfl

@[simp] theorem throw_bind (e : S.Err) (f : α → Prog S β) : throw e >>= f = throw e := rfl

@[simp] theorem call_bind (o : S.Op) (k : S.Reply o → Prog S α) (f : α → Prog S β) :
    call o k >>= f = call o fun r => k r >>= f := rfl

@[simp] theorem tryCatch_ret (a : α) (h : S.Err → Prog S α) : MonadExcept.tryCatch (ret a) h = ret a := rfl

@[simp] theorem tryCatch_throw (e : S.Err) (h : S.Err → Prog S α) :
    MonadExcept.tryCatch (throw e) h = h e := rfl

@[simp] theorem tryCatch_call (o : S.Op) (k : S.Reply o → Prog S α) (h : S.Err → Prog S α) :
    MonadExcept.tryCatch (call o k) h = call o fun r => MonadExcept.tryCatch (k r) h := rfl

def Calls (K : S.Op → Prop) : Prog S α → Prop
  | ret _ => True
  | throw _ => True
  | call o k => K o ∧ ∀ r, (k r).Calls K

variable {K : S.Op → Prop}

@[simp] theorem calls_ret (a : α) : (ret a : Prog S α).Calls K := trivial

@[simp] theorem calls_throw (e : S.Err) : (throw e : Prog S α).Calls K := trivial

theorem calls_of_forall (h : ∀ o, K o) (p : Prog S α) : p.Calls K := by
  induction p with
  | ret a => trivial
  | throw e => trivial
  | call o k ih => exact ⟨h o, ih⟩

theorem calls_imp {K' : S.Op → Prop} {p : Prog S α} (hp : p.Calls K) (h : ∀ o, K o → K' o) : p.Calls K' := by
  induction p with
  | ret a => trivial
  | throw e => trivial
  | call o k ih => exact ⟨h o hp.1, fun r => ih r (hp.2 r)⟩

theorem calls_perform {o : S.Op} (h : K o) : (perform o).Calls K :=
  ⟨h, fun r => by cases r <;> trivial⟩

theorem calls_bind {p : Prog S α} {f : α → Prog S β} (hp : p.Calls K) (hf : ∀ a, (f a).Calls K) :
    (p >>= f).Calls K := by
  induction p with
  | ret a => exact hf a
  | throw e => trivial
  | call o k ih => exact ⟨hp.1, fun r => ih r (hp.2 r)⟩

theorem calls_tryCatch {p : Prog S α} {h : S.Err → Prog S α} (hp : p.Calls K)
    (hh : ∀ e, (h e).Calls K) : (MonadExcept.tryCatch p h).Calls K := by
  induction p with
  | ret a => trivial
  | throw e => exact hh e
  | call o k ih => exact ⟨hp.1, fun r => ih r (hp.2 r)⟩

end Prog

end SkillBridge.Interleaving
