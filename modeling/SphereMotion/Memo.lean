namespace SphereMotion

variable {κ β : Type}

/-- The last result of a computation, kept together with its key. -/
structure Memo (compute : κ → Option β) where
  entry : Option { e : κ × β // compute e.1 = some e.2 } := none

namespace Memo

variable {compute : κ → Option β}

def empty : Memo compute := {}

def key? (memo : Memo compute) : Option κ := memo.entry.map (·.val.1)

/-- Computes the value of a key and keeps it. -/
def refresh (compute : κ → Option β) (key : κ) : Option (β × Memo compute) :=
  match found : compute key with
  | some value => some (value, ⟨some ⟨(key, value), found⟩⟩)
  | none => none

/-- The value of a key, taken from the memo if `same` finds the key there. -/
def fetch (same : κ → κ → Bool) (memo : Memo compute) (key : κ) : Option (β × Memo compute) :=
  match memo.entry with
  | some e => if same e.val.1 key then some (e.val.2, memo) else refresh compute key
  | none => refresh compute key

theorem refresh_value (compute : κ → Option β) (key : κ) :
    (refresh compute key).map (·.1) = compute key := by
  unfold refresh
  split <;> simp_all

/-- What a memo holds never shows in the values that it gives. -/
theorem fetch_value {same : κ → κ → Bool} (sound : ∀ k l, same k l = true → k = l) (memo : Memo compute)
    (key : κ) : (memo.fetch same key).map (·.1) = compute key := by
  unfold fetch
  split
  next e _ =>
    split
    next alike => simpa [← sound _ _ alike] using e.property.symm
    next => exact refresh_value compute key
  next => exact refresh_value compute key

end Memo

end SphereMotion
