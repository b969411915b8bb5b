import Mathlib.Algebra.Group.Int.Defs
import Mathlib.Algebra.GroupWithZero.Nat

/-! Bytes, text and errors shared by every module. A `std::string` and a range
of `uint8_t` are both a list of bytes. -/
namespace Crablib

abbrev Bytes := List UInt8

/-- The bytes of an ASCII literal. -/
def str (text : String) : Bytes := text.toList.map fun c => UInt8.ofNat c.toNat

def ch (c : Char) : UInt8 := UInt8.ofNat c.toNat

/-- A thrown exception: `invariant` throws `std::logic_error`, malformed input
is `std::runtime_error`. -/
inductive Error where
  | logic (message : String)
  | runtime (message : String)
  deriving DecidableEq, Repr

def invariant (expr : Bool) (message : String) : Except Error Unit :=
  if expr then .ok () else .error (.logic message)

@[simp] theorem invariant_ok {expr : Bool} {message : String} {u : Unit} :
    invariant expr message = .ok u ↔ expr = true := by
  cases expr <;> simp [invariant]

/-- A sequence of calls returns when each of them does. -/
@[simp] theorem bind_eq_ok {ε α β : Type} {first : Except ε α} {next : α → Except ε β} {result : β} :
    (first >>= next) = .ok result ↔ ∃ a, first = .ok a ∧ next a = .ok result := by
  cases first <;> simp [bind, Except.bind]

@[simp] theorem pure_eq_ok {ε α : Type} {a result : α} :
    (pure a : Except ε α) = .ok result ↔ a = result := by
  simp [pure, Except.pure]

@[simp] theorem map_eq_ok {ε α β : Type} {first : Except ε α} {f : α → β} {result : β} :
    f <$> first = .ok result ↔ ∃ a, first = .ok a ∧ f a = result := by
  cases first <;> simp [Functor.map, Except.map]

@[simp] theorem throw_ne_ok {ε α : Type} {e : ε} {result : α} : (throw e : Except ε α) ≠ .ok result := by
  simp [throw, throwThe, MonadExceptOf.throw]

theorem toOption_eq_some {ε α : Type} {result : Except ε α} {a : α} :
    result.toOption = some a ↔ result = .ok a := by
  cases result <;> simp [Except.toOption]

/-- A call that was run returned, if anything was seen of what it returned. -/
theorem ok_of_run {ε α β : Type} {result : Except ε α} {f : α → β} {b : β}
    (run : result.toOption.map f = some b) :
    ∃ a, result = .ok a ∧ f a = b := by
  obtain ⟨a, returned, seen⟩ := Option.map_eq_some_iff.mp run
  exact ⟨a, toOption_eq_some.mp returned, seen⟩

theorem findIdx?_absent {text : Bytes} {c : UInt8} (absent : c ∉ text) :
    text.findIdx? (· = c) = none := by
  rw [List.findIdx?_eq_none_iff]
  intro d member
  exact decide_eq_false fun same => absent (same ▸ member)

/-- A search ends at the first byte that is looked for. -/
theorem findIdx?_first {front : Bytes} {c : UInt8} (first : c ∉ front) (behind : Bytes) :
    (front ++ c :: behind).findIdx? (· = c) = some front.length := by
  rw [List.findIdx?_append, findIdx?_absent first, List.findIdx?_cons,
    if_pos (decide_eq_true rfl), Option.map_some, Option.none_or, Nat.zero_add]

/-- What holds of the numbers below 256 holds of every byte. -/
theorem byte_cases {P : UInt8 → Prop} (all : ∀ n : Fin 256, P (UInt8.ofNat n)) (c : UInt8) : P c := by
  have each := all ⟨c.toNat, c.toNat_lt⟩
  rwa [UInt8.ofNat_toNat] at each

end Crablib
