import TripleLex.Lexer
import TripleLex.Proofs.Encoding
import TripleLex.Proofs.Twins

/-!
# Readers and texts

Nothing that is read tells a text from a reader that delivers it: every scan of
every format is blind to the way its source gives its characters, so that two
lexers on twin sources come to the same items for as long as they are asked,
faults included.

A reader whose deliveries cut the bytes of a text, wherever they cut them, is the
twin of that text.

## Main results

* `Source.twin_of_cuts` — a text and a reader that delivers it.
* `Lexer.items_of_cuts` — what is read of them.
-/

namespace TripleLex

/-! ## Deliveries -/

namespace Input

namespace Reader

/-- The reader delivers these bytes and then ends. It may cut them anywhere and
be interrupted anywhere. -/
inductive Cuts : Reader → List UInt8 → Prop
  | ending : Cuts [] []
  | bytes (first : UInt8) (more : List UInt8) {reader : Reader} {bs : List UInt8}
    (h : Cuts reader bs) : Cuts (.bytes first more :: reader) (first :: (more ++ bs))
  | interruption {reader : Reader} {bs : List UInt8} (h : Cuts reader bs) :
    Cuts (.interruption :: reader) bs

variable {reader : Reader} {bs : List UInt8}

theorem Cuts.bytes_eq (h : Cuts reader bs) : reader.bytes = bs := by
  induction h with
  | ending => rfl
  | bytes first more _ ih => rw [Reader.bytes, ih]
  | interruption _ ih => exact ih

theorem Cuts.failure?_eq (h : Cuts reader bs) : reader.failure? = none := by
  induction h with
  | ending => rfl
  | bytes first more _ ih => exact ih
  | interruption _ ih => exact ih

end Reader

/-- A text is the twin of every reader that delivers it. -/
theorem Source.twin_of_cuts {reader : Reader} {text : String}
    (h : reader.Cuts text.toUTF8.data.toList) : (ofText text).Twin (ofReader reader) := by
  have hdecode : Unicode.Utf8.decode reader.bytes = (text.toList, .complete) := by
    rw [h.bytes_eq]
    exact Unicode.Utf8.decode_toByteArray text
  obtain ⟨hcharacters, hbroken⟩ := Reader.gives_of_decode hdecode
  rw [h.failure?_eq] at hbroken
  exact ⟨hcharacters, hbroken, rfl, rfl⟩

end Input

namespace Lexer

open Input (Reader Source)

/-- The other lexer has the same rules, on a twin of the source. -/
inductive Twin (l : Lexer) : Lexer → Prop
  | mk {k : Cursor} (h : l.cursor.Twin k) : Twin l ⟨l.machine, k⟩

variable {l l' : Lexer}

/-- Twins read the same item, and are left as twins. -/
theorem Twin.next (h : l.Twin l') : l'.next.1 = l.next.1 ∧ l.next.2.Twin l'.next.2 := by
  obtain ⟨hk⟩ := h
  have halike := (composed_next l.machine).blind.alike hk
  unfold Lexer.next
  generalize l.machine.next l.cursor = r at halike
  generalize l.machine.next _ = r' at halike
  cases halike with
  | ok hleft => exact ⟨rfl, .mk hleft⟩
  | error hleft => exact ⟨rfl, .mk hleft⟩

theorem Twin.steps (h : l.Twin l') (n : Nat) :
    (l'.steps n).map Prod.fst = (l.steps n).map Prod.fst := by
  induction n generalizing l l' with
  | zero => rfl
  | succ n ih =>
    obtain ⟨hitem, hleft⟩ := h.next
    rw [Lexer.steps, Lexer.steps, List.map_cons, List.map_cons, hitem, ih hleft]

/-- However the bytes of a text are cut, and however often their delivery is
interrupted, the same items are read as of the text, for as long as reading goes
on. -/
theorem items_of_cuts (settings : Settings) (text : String) (reader : Reader)
    (h : reader.Cuts text.toUTF8.data.toList) (n : Nat) :
    ((ofReader settings reader).steps n).map Prod.fst =
      ((ofText settings text).steps n).map Prod.fst := by
  have htwin : (ofText settings text).Twin (ofReader settings reader) :=
    .mk (.onto (Source.twin_of_cuts h))
  exact htwin.steps n

/-- A letter of two bytes comes in two deliveries with an interruption between
them; the third item is a fault, and reading goes on behind it. -/
theorem items_of_interrupted_letter :
    let reader : Reader := [.interruption, .bytes 0x61 [0x3A, 0xC3], .interruption,
      .bytes 0xA9 [], .bytes 0x20 [0x7B]]
    reader.Cuts "a:é \x7b".toUTF8.data.toList ∧
      ((ofReader .standard reader).steps 4).map Prod.fst =
        ((ofText .standard "a:é \x7b").steps 4).map Prod.fst := by
  intro reader
  have hcuts : reader.Cuts "a:é \x7b".toUTF8.data.toList :=
    .interruption (.bytes _ _ (.interruption (.bytes _ _ (.bytes _ _ .ending))))
  exact ⟨hcuts, items_of_cuts .standard _ reader hcuts 4⟩

end Lexer

end TripleLex
