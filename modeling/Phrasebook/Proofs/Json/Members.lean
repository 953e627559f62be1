import Mathlib.Data.List.Nodup
import Mathlib.Data.List.TakeWhile
import Phrasebook.Proofs.Json.Quoted

/-!
# Reading an object of texts

An object of texts, written with one member a line, is read as its members in their order. The
blanks between the pieces are passed over, so what follows the opening brace is taken one member
after the other, up to the closing brace.
-/

namespace Phrasebook.Json

open Reader

variable {α : Type} {text middle rest blanks : List Char}

theorem Reads.afterBlanks?_cons {c : Char} (hblanks : ∀ b ∈ blanks, isBlank b = true)
    (hc : isBlank c = false) (rest : List Char) :
    Reads Reader.afterBlanks? (blanks ++ c :: rest) (some c) (c :: rest) := by
  have hdrop : (blanks ++ c :: rest).dropWhile isBlank = c :: rest := by
    rw [List.dropWhile_append_of_pos hblanks, List.dropWhile_cons_of_neg (Bool.eq_false_iff.1 hc)]
  have hreads := Reads.afterBlanks? (blanks ++ c :: rest)
  rwa [hdrop] at hreads

theorem Reads.afterBlanks?_head {c : Char} (hc : isBlank c = false) (rest : List Char) :
    Reads Reader.afterBlanks? (c :: rest) (some c) (c :: rest) :=
  Reads.afterBlanks?_cons (List.forall_mem_nil _) hc rest

theorem reads_startOfValue {c : Char} (hblanks : ∀ b ∈ blanks, isBlank b = true)
    (hc : isBlank c = false) (rest : List Char) :
    Reads startOfValue (blanks ++ c :: rest) c (c :: rest) :=
  (Reads.afterBlanks?_cons hblanks hc rest).bind (.pure c _)

/-- A body is read up to its end, which is read behind it. -/
theorem Reads.closing {body : Reader α} {finish : Reader Unit} {value : α}
    (hbody : Reads body text value middle) (hfinish : Reads finish middle () rest) :
    Reads (Reader.closing body finish) text value rest := by
  intro offset
  obtain ⟨reached, hbody⟩ := hbody offset
  obtain ⟨later, hfinish⟩ := hfinish reached
  refine ⟨later, ?_⟩
  have hclosing : (ExceptT.run (Reader.closing body finish)).run ⟨offset, text⟩ =
      ((ExceptT.run body).run ⟨offset, text⟩ >>= fun outcome ↦
        (ExceptT.run finish).run outcome.2 >>= fun closed ↦
          Pure.pure (outcome.1.bind fun value ↦ closed.1.map fun _ ↦ value, closed.2)) := rfl
  rw [hclosing, hbody, pure_bind, hfinish, pure_bind]
  rfl

theorem reads_room (text : List Char) : Reads room text (text.length + 1) text :=
  fun offset ↦ ⟨offset, rfl⟩

theorem reads_finish (h : ∀ b ∈ text, isBlank b = true) : Reads finish text () [] := by
  have hdrop : text.dropWhile isBlank = [] := List.dropWhile_eq_nil_iff.2 h
  have hreads := Reads.afterBlanks? text
  rw [hdrop] at hreads
  exact hreads.bind (.pure () [])

/-- A reader that takes a text up to the blanks at its end reads the text as a whole. -/
theorem readAll_of_reads {reader : Reader α} {text : String} {value : α}
    (h : Reads reader text.toList value rest) (hrest : ∀ b ∈ rest, isBlank b = true) :
    readAll reader text = .ok value := by
  have hwhole : Reads (do let value ← reader; finish; return value) text.toList value [] :=
    h.bind ((reads_finish hrest).bind (.pure value []))
  obtain ⟨reached, hreads⟩ := hwhole 0
  exact congrArg Prod.fst hreads

theorem reads_valueAround_text (inner : Option (Reader Value))
    (hblanks : ∀ b ∈ blanks, isBlank b = true) (text : String) (rest : List Char) :
    Reads (valueAround inner) (blanks ++ (quote text).toList ++ rest) (.text text) rest := by
  have hbody := (reads_textBody text rest).map Value.text
  rw [toList_quote, List.append_assoc, List.cons_append, List.cons_append, List.append_assoc,
    List.singleton_append]
  refine (reads_startOfValue hblanks (by decide) _).bind ?_
  exact (Reads.skip '"' _).bind hbody

theorem reads_value_text (depth : Nat) (hblanks : ∀ b ∈ blanks, isBlank b = true) (text : String)
    (rest : List Char) :
    Reads (value depth) (blanks ++ (quote text).toList ++ rest) (.text text) rest := by
  cases depth with
  | zero => exact reads_valueAround_text none hblanks text rest
  | succ depth => exact reads_valueAround_text (some (value depth)) hblanks text rest

/-- What stands before the name of a member: the end of the line, behind a comma unless the member
is the first one. -/
def memberLead (first : Bool) : List Char :=
  if first then ['\n', ' ', ' '] else [',', '\n', ' ', ' ']

def memberLines (first : Bool) : List (String × String) → List Char
  | [] => []
  | entry :: rest =>
    memberLead first ++ (quote entry.1).toList ++ ':' :: ' ' :: (quote entry.2).toList ++
      memberLines false rest

theorem reads_moreMembers (first : Bool) (rest : List Char) :
    Reads (moreMembers first) (memberLead first ++ '"' :: rest) true ('"' :: rest) := by
  have hblanks : ∀ b ∈ ['\n', ' ', ' '], isBlank b = true := List.all_eq_true.1 rfl
  cases first with
  | true => exact (Reads.afterBlanks?_cons hblanks (by decide) rest).bind (.pure true _)
  | false =>
    refine (Reads.afterBlanks?_head (by decide : isBlank ',' = false) _).bind ?_
    refine (Reads.skip ',' _).bind ?_
    exact (Reads.afterBlanks?_cons hblanks (by decide) rest).bind (.pure true _)

theorem reads_noMoreMembers (first : Bool) (hblanks : ∀ b ∈ blanks, isBlank b = true)
    (rest : List Char) :
    Reads (moreMembers first) (blanks ++ '\x7d' :: rest) false ('\x7d' :: rest) :=
  (Reads.afterBlanks?_cons hblanks (by decide) rest).bind (.pure false _)

theorem reads_memberName (name : String) (rest : List Char) :
    Reads memberName ((quote name).toList ++ rest) name rest := by
  rw [toList_quote, List.append_assoc, List.singleton_append]
  exact (Reads.skip '"' _).bind (reads_textBody name rest)

theorem reads_colon (rest : List Char) : Reads colon (':' :: rest) () rest :=
  (Reads.afterBlanks?_head (by decide) rest).bind (.skip ':' rest)

theorem setMember_of_not_mem {name : String} {content : Value} {known : List (String × Value)}
    (h : name ∉ known.map Prod.fst) :
    setMember name content known = known ++ [(name, content)] := by
  induction known with
  | nil => rfl
  | cons member known ih =>
    rw [List.map_cons, List.mem_cons, not_or] at h
    rw [setMember, if_neg (Ne.symm h.1), ih h.2, List.cons_append]

def textMember (entry : String × String) : String × Value :=
  (entry.1, .text entry.2)

/-- Members with new names are put behind those that were read. -/
theorem reads_members (depth : Nat) (entries : List (String × String)) {room : Nat} (first : Bool)
    {known : List (String × Value)} (hroom : entries.length < room)
    (hnodup : (known.map Prod.fst ++ entries.map Prod.fst).Nodup)
    (hblanks : ∀ b ∈ blanks, isBlank b = true) (rest : List Char) :
    Reads (members (value depth) room first known)
      (memberLines first entries ++ (blanks ++ '\x7d' :: rest)) (known ++ entries.map textMember)
      ('\x7d' :: rest) := by
  -- A name that is read moves from the entries to the members that are known, so all names
  -- together stay different.
  induction entries generalizing room first known with
  | nil =>
    obtain ⟨room, rfl⟩ := Nat.exists_eq_add_one_of_ne_zero (Nat.ne_of_gt hroom)
    rw [List.map_nil, List.append_nil]
    exact (reads_noMoreMembers first hblanks rest).bind (.pure known _)
  | cons entry entries ih =>
    obtain ⟨room, rfl⟩ := Nat.exists_eq_add_one_of_ne_zero (Nat.ne_of_gt (Nat.zero_lt_of_lt hroom))
    have hnew : entry.1 ∉ known.map Prod.fst := fun hmem ↦
      List.disjoint_of_nodup_append hnodup hmem List.mem_cons_self
    have hset : setMember entry.1 (.text entry.2) known = known ++ [(entry.1, .text entry.2)] :=
      setMember_of_not_mem hnew
    have hlater : ((known ++ [textMember entry]).map Prod.fst ++ entries.map Prod.fst).Nodup := by
      rw [List.map_append, List.append_assoc]
      exact hnodup
    have hrest := ih false (Nat.lt_of_succ_lt_succ hroom) hlater
    have hspace : ∀ b ∈ [' '], isBlank b = true := List.all_eq_true.1 rfl
    have hvalue := reads_value_text depth hspace entry.2
      (memberLines false entries ++ (blanks ++ '\x7d' :: rest))
    have hname := reads_memberName entry.1
      (':' :: ' ' :: (quote entry.2).toList ++
        (memberLines false entries ++ (blanks ++ '\x7d' :: rest)))
    rw [toList_quote, List.append_assoc, List.singleton_append] at hname
    rw [memberLines, toList_quote]
    simp only [List.append_assoc, List.cons_append, List.nil_append] at hvalue hname ⊢
    refine (reads_moreMembers first _).bind ?_
    rw [if_pos rfl]
    refine hname.bind ((reads_colon _).bind (hvalue.bind ?_))
    rw [hset, List.map_cons, List.append_cons known (textMember entry)]
    exact hrest

theorem length_le_length_memberLines (first : Bool) (entries : List (String × String)) :
    entries.length ≤ (memberLines first entries).length := by
  induction entries generalizing first with
  | nil => exact Nat.le_refl 0
  | cons entry entries ih =>
    have hrest := ih false
    rw [memberLines, List.length_append, List.length_append, List.length_cons, List.length_cons]
    omega

theorem reads_endObject (rest : List Char) : Reads endObject ('\x7d' :: rest) () rest :=
  (Reads.afterBlanks?_head (by decide) rest).bind (.skip '\x7d' rest)

/-- An object of texts with different names is read as its members. -/
theorem parse_object {entries : List (String × String)} (hnodup : (entries.map Prod.fst).Nodup)
    (hblanks : ∀ b ∈ blanks, isBlank b = true) {trail : List Char}
    (htrail : ∀ b ∈ trail, isBlank b = true) :
    parse (String.ofList ('\x7b' :: memberLines true entries ++ (blanks ++ '\x7d' :: trail))) =
      .ok (.object (entries.map textMember)) := by
  have hroom : entries.length <
      (memberLines true entries ++ (blanks ++ '\x7d' :: trail)).length + 1 := by
    have hlength := length_le_length_memberLines true entries
    rw [List.length_append]
    omega
  refine readAll_of_reads ?_ htrail
  rw [String.toList_ofList, List.cons_append]
  refine (reads_startOfValue (List.forall_mem_nil _) (by decide : isBlank '\x7b' = false) _).bind ?_
  refine (Reads.skip '\x7b' _).bind (Reads.closing ?_ (reads_endObject trail))
  refine (reads_room _).bind ?_
  have hnew : (([] : List (String × Value)).map Prod.fst ++ entries.map Prod.fst).Nodup := hnodup
  exact (reads_members _ entries true hroom hnew hblanks trail).map Value.object

end Phrasebook.Json
