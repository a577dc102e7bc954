import WeaveAuth.Chrono
import WeaveAuth.ForMathlib.HashMap

/-!
# The in-memory store of used logout tokens

`InMemoryJtiStorage` of `bff/src/storage/in_memory.rs`. Both operations read the clock and only
then wait for the store's mutex, so the reading is an argument of the step they take under it.
-/

namespace WeaveAuth

namespace Bff

/-- The used `jti`s, each with the instant until which it is remembered. -/
structure JtiStorage where
  used : HashMap String DateTime

namespace JtiStorage

instance : Inhabited JtiStorage := ⟨⟨∅⟩⟩

/-- `InMemoryJtiStorage::new`. -/
def empty : JtiStorage := ⟨∅⟩

/-- `None` is `Err(JtiReplayed)`. -/
def record (s : JtiStorage) (now : DateTime) (jti : String) (expiry : DateTime) :
    Option JtiStorage :=
  if (s.used.get jti).any fun remembered => remembered > now then none
  else some ⟨s.used.insert jti expiry⟩

def sweepExpired (s : JtiStorage) (now : DateTime) : JtiStorage :=
  ⟨s.used.retain fun _ expiry => expiry > now⟩

/-- A `jti` is recorded unless it is remembered beyond the reading. -/
theorem record_eq_some {s s' : JtiStorage} {now : DateTime} {jti : String} {expiry : DateTime} :
    s.record now jti expiry = some s' ↔
      (∀ remembered, s.used.get jti = some remembered → remembered ≤ now) ∧
        s' = ⟨s.used.insert jti expiry⟩ := by
  rw [record]
  cases hget : s.used.get jti with
  | none => simp [eq_comm]
  | some remembered =>
    by_cases h : remembered > now
    · simp [h, not_le.mpr h]
    · simp [h, not_lt.mp h, eq_comm]

theorem get_sweepExpired (s : JtiStorage) (now : DateTime) (jti : String) :
    (s.sweepExpired now).used.get jti = (s.used.get jti).filter fun expiry => expiry > now := by
  rw [sweepExpired, HashMap.get_retain]

end JtiStorage

end Bff

end WeaveAuth
