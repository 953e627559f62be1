import Phrasebook.Proofs.Json.Members
import Phrasebook.Proofs.Text.Blank

/-!
# Blank texts

No value starts with a blank, whether or not it is a blank of the format: a blank text denotes no
value.
-/

namespace Phrasebook.Json

open Reader

variable {α β : Type} {text middle : List Char}

/-- A reader fails on a text, at whatever offset the text stands. -/
def Fails (reader : Reader α) (text : List Char) : Prop :=
  ∀ offset, ∃ fault reached,
    (ExceptT.run reader).run ⟨offset, text⟩ = pure (.error fault, reached)

theorem Fails.bind {reader : Reader α} (first : Fails reader text) (next : α → Reader β) :
    Fails (reader >>= next) text := by
  intro offset
  obtain ⟨fault, reached, hfirst⟩ := first offset
  refine ⟨fault, reached, ?_⟩
  rw [ExceptT.run_bind, StateT.run_bind, hfirst, pure_bind]
  rfl

theorem Reads.bind_fails {reader : Reader α} {next : α → Reader β} {value : α}
    (first : Reads reader text value middle) (second : Fails (next value) middle) :
    Fails (reader >>= next) text := by
  intro offset
  obtain ⟨reached, hfirst⟩ := first offset
  obtain ⟨fault, later, hsecond⟩ := second reached
  refine ⟨fault, later, ?_⟩
  rw [ExceptT.run_bind, StateT.run_bind, hfirst, pure_bind]
  exact hsecond

theorem fails_failAhead (reason : Reason) (text : List Char) :
    Fails (failAhead reason : Reader α) text :=
  fun _ ↦ ⟨_, _, rfl⟩

theorem readAll_of_fails {reader : Reader α} {text : String} (h : Fails reader text.toList) :
    ∃ fault, readAll reader text = .error fault := by
  have hwhole : Fails (do let value ← reader; finish; return value) text.toList := h.bind _
  obtain ⟨fault, reached, hfails⟩ := hwhole 0
  exact ⟨fault, congrArg Prod.fst hfails⟩

def startsValue (c : Char) : Bool :=
  ['n', 't', 'f', '"', '[', '\x7b'].contains c || startsNumber c

theorem startsValue_of_mem_blankCodes :
    ∀ code ∈ Text.blankCodes, startsValue (Char.ofNat code) = false := by
  decide +kernel

theorem startsValue_of_isBlank {c : Char} (h : Text.isBlank c = true) : startsValue c = false := by
  have hstarts := startsValue_of_mem_blankCodes c.toNat (Text.toNat_mem_blankCodes h)
  rwa [Char.ofNat_toNat] at hstarts

theorem fails_startOfValue (h : (text.dropWhile Reader.isBlank).head? = none) :
    Fails startOfValue text := by
  have hblanks := Reads.afterBlanks? text
  rw [h] at hblanks
  exact hblanks.bind_fails (fails_failAhead _ _)

/-- Where no value starts, none is read. -/
theorem fails_valueAround (inner : Option (Reader Value))
    (h : ∀ c, (text.dropWhile Reader.isBlank).head? = some c → startsValue c = false) :
    Fails (valueAround inner) text := by
  cases hhead : (text.dropWhile Reader.isBlank).head? with
  | none => exact (fails_startOfValue hhead).bind _
  | some c =>
    have hblanks := Reads.afterBlanks? text
    rw [hhead] at hblanks
    have hstart := h c hhead
    refine (hblanks.bind (.pure c _)).bind_fails ?_
    have hnumber : startsNumber c = false := (Bool.or_eq_false_iff.1 hstart).2
    split
    all_goals first
      | cases hstart
      | rw [hnumber, if_neg Bool.false_ne_true]
        exact fails_failAhead _ _

/-- A blank text denotes no value. -/
theorem parse_of_isBlankText {text : String} (h : Text.isBlankText text = true) :
    ∃ fault, parse text = .error fault := by
  refine readAll_of_fails (fails_valueAround _ fun c hc ↦ ?_)
  have hmem : c ∈ text.toList := List.dropWhile_subset _ (List.mem_of_head? hc)
  exact startsValue_of_isBlank (List.all_eq_true.1 h c hmem)

end Phrasebook.Json
