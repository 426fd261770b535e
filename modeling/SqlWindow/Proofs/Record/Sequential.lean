import SqlWindow.Proofs.Answer
import SqlWindow.Record.Decode

set_option autoImplicit false

/-! # Bytes behind a row

A reader takes bytes off the front and never looks at those behind. So a reader that succeeds
does the same when more bytes follow, and as a row has to take up all of its bytes, of two byte
strings one of which goes on where the other ends at most one is a row.
-/

namespace SqlWindow

namespace Record

variable {α β : Type}

/-- The reader looks at no byte behind those it takes, and what it refuses it refuses as damage
of the spilled rows. -/
structure Sequential (x : Reader α) : Prop where
  append : ∀ bytes rest a more, x bytes = .ok (a, rest) → x (bytes ++ more) = .ok (a, rest ++ more)
  kind : ∀ bytes e, x bytes = .error e → e.kind = .resource

/-! ## Readers -/

theorem kind_corrupt (reason : String) : (corrupt reason).kind = .resource := rfl

namespace Sequential

theorem pure (a : α) : Sequential (pure a : Reader α) where
  append bytes rest b more h := by
    cases h
    rfl
  kind bytes e h := by cases h

theorem throw (reason : String) : Sequential (throw (corrupt reason) : Reader α) where
  append bytes rest b more h := by cases h
  kind bytes e h := by
    cases h
    exact kind_corrupt reason

theorem bind {x : Reader α} {f : α → Reader β} (hx : Sequential x) (hf : ∀ a, Sequential (f a)) :
    Sequential (x >>= f) where
  append bytes rest b more h := by
    obtain ⟨⟨a, left⟩, hfirst, hrest⟩ := Answer.ok_of_bind_ok (x := x bytes) h
    have hfirst' := hx.append bytes left a more hfirst
    exact (Answer.bind_of_ok hfirst').trans ((hf a).append left rest b more hrest)
  kind bytes e h := by
    rcases Answer.error_of_bind_error (x := x bytes) h with hfirst | ⟨⟨a, left⟩, -, hrest⟩
    · exact hx.kind bytes e hfirst
    · exact (hf a).kind left e hrest

end Sequential

theorem sequential_takeBytes (count : Nat) (part : String) : Sequential (takeBytes count part) where
  append bytes rest a more h := by
    unfold takeBytes at h ⊢
    by_cases hshort : bytes.length < count
    · rw [if_pos hshort] at h
      cases h
    · rw [if_neg hshort] at h
      cases h
      have hlength : count ≤ bytes.length := Nat.le_of_not_lt hshort
      rw [if_neg (by rw [List.length_append]; omega), List.take_append_of_le_length hlength,
        List.drop_append_of_le_length hlength]
  kind bytes e h := by
    unfold takeBytes at h
    split at h
    · cases h
      exact kind_corrupt _
    · cases h

theorem sequential_takeNat (width : Nat) (part : String) : Sequential (takeNat width part) :=
  (sequential_takeBytes width part).bind fun _ => .pure _

theorem sequential_takeInt64 (part : String) : Sequential (takeInt64 part) :=
  (sequential_takeNat 8 part).bind fun _ => .pure _

theorem sequential_takeText (part : String) : Sequential (takeText part) := by
  refine (sequential_takeNat 4 part).bind fun count => ?_
  refine (sequential_takeBytes count part).bind fun bytes => ?_
  cases Utf8.decode bytes with
  | ok s => exact .pure s
  | error e => exact .throw _

/-- One case for each tag that a value can have, and one for all others. -/
theorem sequential_takeValue : Sequential takeValue := by
  refine (sequential_takeNat 1 _).bind fun tag => ?_
  split
  · exact (sequential_takeNat 1 _).bind fun _ => .pure _
  · exact (sequential_takeNat 1 _).bind fun _ => .pure _
  · exact (sequential_takeInt64 _).bind fun _ => .pure _
  · exact (sequential_takeNat 8 _).bind fun _ => .pure _
  · exact (sequential_takeText _).bind fun _ => .pure _
  · exact (sequential_takeText _).bind fun _ => .pure _
  · refine (sequential_takeInt64 _).bind fun seconds => ?_
    refine (sequential_takeNat 4 _).bind fun nanos => ?_
    cases Timestamp.ofParts? seconds.toInt nanos with
    | some t => exact .pure _
    | none => exact .throw _
  · exact .throw _

theorem sequential_takeValues (count : Nat) : Sequential (takeValues count) := by
  induction count with
  | zero => exact .pure []
  | succ count ih => exact sequential_takeValue.bind fun v => ih.bind fun _ => .pure _

/-! ## Rows -/

/-- The count of a row's values and the values, with what is left over. -/
def takeRow : Reader Row := do
  takeValues (← takeNat 4 "value count")

theorem sequential_takeRow : Sequential takeRow :=
  (sequential_takeNat 4 _).bind sequential_takeValues

/-- Bytes are a row when the row takes up all of them. -/
theorem decodeRow_eq (bytes : List UInt8) :
    decodeRow bytes = (takeRow bytes >>= fun p =>
      if p.2.isEmpty then pure p.1
      else throw (corrupt s!"{p.2.length} trailing bytes after row")) := by
  show (takeNat 4 "value count" bytes >>= _) = ((takeNat 4 "value count" bytes >>= _) >>= _)
  cases takeNat 4 "value count" bytes <;> rfl

theorem takeRow_of_decodeRow {bytes : List UInt8} {row : Row} (h : decodeRow bytes = .ok row) :
    takeRow bytes = .ok (row, []) := by
  rw [decodeRow_eq] at h
  obtain ⟨⟨row', rest⟩, htake, hrest⟩ := Answer.ok_of_bind_ok h
  cases rest with
  | nil =>
    cases hrest
    exact htake
  | cons b rest => cases hrest

/-- **No row goes on behind a row.** Bytes that make a row make none when others follow them. -/
theorem decodeRow_append_ne_ok {bytes more : List UInt8} {row : Row} (h : decodeRow bytes = .ok row)
    (hmore : more ≠ []) (row' : Row) : decodeRow (bytes ++ more) ≠ .ok row' := by
  intro h'
  have hall := sequential_takeRow.append bytes [] row more (takeRow_of_decodeRow h)
  rw [takeRow_of_decodeRow h', List.nil_append] at hall
  cases hall
  exact hmore rfl

/-- Bytes that are no row are damage. -/
theorem kind_of_decodeRow_error {bytes : List UInt8} {e : Error} (h : decodeRow bytes = .error e) :
    e.kind = .resource := by
  rw [decodeRow_eq] at h
  rcases Answer.error_of_bind_error h with htake | ⟨⟨row, rest⟩, -, hrest⟩
  · exact sequential_takeRow.kind bytes e htake
  · cases rest with
    | nil => cases hrest
    | cons b rest =>
      cases hrest
      exact kind_corrupt _

end Record

end SqlWindow
