import QueryGate.Json.Reader

/-! A reader that succeeds takes some bytes from the front and leaves the rest. Such readings are
put together as the readers are; a loop reads as long as each of its rounds takes something. -/

namespace QueryGate.Json

variable {σ α β : Type} {bytes middle rest : Bytes}

/-- Started on these bytes, the reader succeeds with the value and leaves the rest. -/
def Reads (reader : Reader α) (bytes : Bytes) (a : α) (rest : Bytes) : Prop :=
  reader.run.run bytes = (.ok a, rest)

theorem run_bind_eq {x : StateM Bytes α} {f : α → StateM Bytes β} {a : α} {b : β}
    (first : x.run bytes = (a, middle)) (second : (f a).run middle = (b, rest)) :
    (x >>= f).run bytes = (b, rest) := by
  rw [StateT.run_bind, first]
  exact second

namespace Reads

theorem pure (a : α) : Reads (Pure.pure a) bytes a bytes := rfl

theorem bind {x : Reader α} {f : α → Reader β} {a : α} {b : β} (first : Reads x bytes a middle)
    (second : Reads (f a) middle b rest) : Reads (x >>= f) bytes b rest := by
  rw [Reads, ExceptT.run_bind]
  exact run_bind_eq first second

variable {p : Prop} [Decidable p] {x y : Reader α} {a : α}

theorem ite_pos (holds : p) (taken : Reads x bytes a rest) :
    Reads (if p then x else y) bytes a rest := by
  rwa [if_pos holds]

theorem ite_neg (fails : ¬ p) (taken : Reads y bytes a rest) :
    Reads (if p then x else y) bytes a rest := by
  rwa [if_neg fails]

theorem runOn_eq (reads : Reads x bytes a rest) : Reader.runOn x bytes = .ok a :=
  congrArg Prod.fst reads

end Reads

open Reader

theorem reads_get : Reads get bytes bytes bytes := rfl

theorem reads_set (new : Bytes) : Reads (set new) bytes () new := rfl

theorem reads_modify (f : Bytes → Bytes) : Reads (modify f) bytes () (f bytes) := rfl

theorem reads_peek : Reads peek bytes bytes.head? bytes := rfl

theorem reads_next (b : UInt8) : Reads next (b :: rest) b rest := rfl

theorem reads_drop (b : UInt8) : Reads drop (b :: rest) () rest := rfl

theorem reads_peekPast {b : UInt8} (visible : isBlank b = false) :
    Reads peekPast (b :: rest) (some b) (b :: rest) := by
  have stays : (b :: rest).dropWhile isBlank = b :: rest := by
    rw [List.dropWhile_cons, visible]
    rfl
  refine .bind (reads_modify _) ?_
  rw [stays]
  exact reads_peek

theorem reads_restOfWord (word : String) :
    Reads (restOfWord word) (word.toList.map byte ++ rest) () rest := by
  unfold restOfWord
  induction word.toList with
  | nil => exact .pure ()
  | cons c cs ih => exact .bind (.bind (reads_next _) (.ite_pos rfl (.pure _))) ih

theorem Reads.attempt {reader : Reader α} {a : α} (reads : Reads reader bytes a rest) :
    Reads (Reader.attempt reader) bytes (some a) rest :=
  run_bind_eq reads rfl

theorem Reads.followedBy {reader : Reader α} {last : Reader Unit} {a : α}
    (reads : Reads reader bytes a middle) (closes : Reads last middle () rest) :
    Reads (Reader.followedBy reader last) bytes a rest :=
  run_bind_eq reads (run_bind_eq closes rfl)

/-- The rounds of a loop, of which each but the last one takes at least one byte. -/
inductive Loops (step : σ → Reader (σ ⊕ α)) : σ → Bytes → α → Bytes → Prop where
  | last {state : σ} {bytes rest : Bytes} {a : α} (reads : Reads (step state) bytes (.inr a) rest) :
      Loops step state bytes a rest
  | more {state next : σ} {bytes middle rest : Bytes} {a : α}
      (reads : Reads (step state) bytes (.inl next) middle) (shorter : middle.length < bytes.length)
      (others : Loops step next middle a rest) : Loops step state bytes a rest

theorem Loops.reads_loopUpTo {step : σ → Reader (σ ⊕ α)} {giveUp : Reader α} {state : σ} {a : α}
    (loops : Loops step state bytes a rest) {rounds : Nat} (enough : bytes.length < rounds) :
    Reads (loopUpTo step giveUp rounds state) bytes a rest := by
  -- every round leaves fewer bytes, so the rounds that are allowed do not run out
  induction loops generalizing rounds with
  | last reads =>
    obtain ⟨rounds, rfl⟩ := Nat.exists_eq_add_one_of_ne_zero (Nat.ne_zero_of_lt enough)
    exact .bind reads (.pure _)
  | more reads shorter _ ih =>
    obtain ⟨rounds, rfl⟩ := Nat.exists_eq_add_one_of_ne_zero (Nat.ne_zero_of_lt enough)
    exact .bind reads (ih (by omega))

theorem Loops.reads {step : σ → Reader (σ ⊕ α)} {state : σ} {a : α}
    (loops : Loops step state bytes a rest) : Reads (iterate step state) bytes a rest :=
  .bind reads_get (loops.reads_loopUpTo (Nat.lt_succ_self _))

end QueryGate.Json
