import JumpHooks.Bytes.Reader

/-!
# What a reader takes

A reader that succeeds leaves a tail of its input, and sequencing two readers runs the second
one on what the first one left. It reads the same wherever the bytes that it takes stand.
-/

namespace JumpHooks
namespace Reader

variable {α β : Type}

/-!
# Sequencing
-/

theorem run_bind (r : Reader α) (f : α → Reader β) (bytes : List UInt8) :
    (r.bind f).run bytes = (r.run bytes).bind fun x => (f x.1).run x.2 := by
  induction r generalizing bytes with
  | done a => rfl
  | fail => rfl
  | next k ih =>
      cases bytes with
      | nil => rfl
      | cons b rest => exact ih b rest

theorem run_bind_some {r : Reader α} {f : α → Reader β} {bytes rest : List UInt8} {b : β}
    (h : (r.bind f).run bytes = some (b, rest)) :
    ∃ a mid, r.run bytes = some (a, mid) ∧ (f a).run mid = some (b, rest) := by
  rw [run_bind] at h
  rcases Option.bind_eq_some_iff.mp h with ⟨⟨a, mid⟩, hr, hf⟩
  exact ⟨a, mid, hr, hf⟩

/-- The same for readers that are written in the notation of monads. -/
theorem run_monad_bind_some {r : Reader α} {f : α → Reader β} {bytes rest : List UInt8}
    {b : β} (h : (r >>= f).run bytes = some (b, rest)) :
    ∃ a mid, r.run bytes = some (a, mid) ∧ (f a).run mid = some (b, rest) :=
  run_bind_some h

theorem run_monad_bind (r : Reader α) (f : α → Reader β) (bytes : List UInt8) :
    (r >>= f).run bytes = (r.run bytes).bind fun x => (f x.1).run x.2 :=
  run_bind r f bytes

theorem run_pure (a : α) (bytes : List UInt8) :
    (pure a : Reader α).run bytes = some (a, bytes) :=
  rfl

theorem run_done_some {a b : α} {bytes rest : List UInt8}
    (h : (done a).run bytes = some (b, rest)) : a = b ∧ bytes = rest := by
  simpa [run] using h

/-!
# Consumption
-/

theorem run_suffix {r : Reader α} {bytes rest : List UInt8} {a : α}
    (h : r.run bytes = some (a, rest)) : rest <:+ bytes := by
  induction r generalizing bytes with
  | done c =>
      have hbytes := (run_done_some h).2
      subst hbytes
      exact List.suffix_refl bytes
  | fail => cases h
  | next k ih =>
      cases bytes with
      | nil => cases h
      | cons b tail => exact (ih b h).trans (List.suffix_cons b tail)

/-- A reader that begins with a byte takes at least that one. -/
theorem run_next_length_lt {k : UInt8 → Reader α} {bytes rest : List UInt8} {a : α}
    (h : (next k).run bytes = some (a, rest)) : rest.length < bytes.length := by
  cases bytes with
  | nil => cases h
  | cons b tail =>
      have hle : rest.length ≤ tail.length := (run_suffix (r := k b) h).length_le
      simpa using Nat.lt_succ_of_le hle

/-!
# Locality
-/

/-- A reader decides on the bytes that it takes. Whatever stands behind them instead of what
stood there is left. -/
theorem run_own {r : Reader α} {own rest : List UInt8} {a : α}
    (h : r.run (own ++ rest) = some (a, rest)) (more : List UInt8) :
    r.run (own ++ more) = some (a, more) := by
  induction r generalizing own with
  | done c =>
      rcases run_done_some h with ⟨hresult, hbytes⟩
      have hown : own = [] := List.append_left_eq_self.mp hbytes
      rw [hown, hresult]
      rfl
  | fail => cases h
  | next k ih =>
      cases own with
      | nil =>
          have hlt := run_next_length_lt h
          rw [List.nil_append] at hlt
          exact absurd hlt (Nat.lt_irrefl _)
      | cons b own => exact ih b h

end Reader
end JumpHooks
