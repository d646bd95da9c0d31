import MaximalMunch.Proofs.Tokenize

/-!
# Texts cut between two tokens

Longest match looks behind a token only to see that nothing longer is accepted.
So a token stays the same when the text is cut short anywhere behind it, and
also when the text before it is taken away.  A text that is cut where a token
ends therefore has the tokens of its first part, and then those of its second
part, moved to where that part stands.
-/

namespace MaximalMunch

namespace Table

variable {table : Table}

/-- A text that still begins with the word is as good as the whole text. -/
theorem Munches.of_prefix {ahead shorter word : List Char} {kind : KindId}
    (munches : table.Munches ahead word kind) (leads : word <+: shorter)
    (within : shorter <+: ahead) : table.Munches shorter word kind := by
  cases munches with
  | recognized _ accepted longest =>
      refine .recognized leads accepted ?_
      intro longer other longerLeads longerAccepted
      exact longest longer other (longerLeads.trans within) longerAccepted
  | unrecognized _ nothing =>
      obtain ⟨after, rfl⟩ := leads
      refine .unrecognized (List.singleton_append ..) ?_
      intro other kind otherLeads
      exact nothing other kind (otherLeads.trans within)

/-- Each part of a list of tokens has a part of the text to itself. -/
theorem Munched.exists_split {offset : Nat} {ahead : List Char} {heads tails : List Token}
    (munched : table.Munched offset ahead (heads ++ tails)) :
    ∃ before after, ahead = before ++ after ∧ table.Munched offset before heads ∧
      table.Munched (offset + Text.byteLength before) after tails := by
  induction heads generalizing offset ahead with
  | nil => exact ⟨[], ahead, rfl, .nil, munched⟩
  | cons head heads ih =>
      cases munched with
      | @cons _ _ word _ kind _ split first others =>
          obtain ⟨before, after, rfl, munchedBefore, munchedAfter⟩ := ih others
          rw [← List.append_assoc] at split
          have firstBefore : table.Munches (word ++ before) word kind :=
            first.of_prefix (List.prefix_append word before) ⟨after, split.symm⟩
          refine ⟨word ++ before, after, split, .cons rfl firstBefore munchedBefore, ?_⟩
          rwa [Text.byteLength_append, ← Nat.add_assoc]

/-- The last token ends where the text ends. -/
theorem Munched.stop_eq {offset : Nat} {ahead : List Char} {tokens : List Token} {token : Token}
    (munched : table.Munched offset ahead (tokens ++ [token])) :
    token.stop = offset + Text.byteLength ahead := by
  obtain ⟨before, after, rfl, _, last⟩ := munched.exists_split
  cases last with
  | cons split _ others =>
      cases others with
      | nil =>
          rw [List.append_nil] at split
          rw [split, Text.byteLength_append, Nat.add_assoc]

theorem Munched.shift {offset : Nat} {ahead : List Char} {tokens : List Token}
    (munched : table.Munched offset ahead tokens) (distance : Nat) :
    table.Munched (offset + distance) ahead
      (tokens.map fun token => token.shift distance) := by
  induction munched with
  | nil => exact .nil
  | @cons offset ahead word after kind tokens split first _ ih =>
      rw [Nat.add_right_comm] at ih
      have moved := Munched.cons split first ih
      rw [Nat.add_right_comm] at moved
      exact moved

end Table

variable {table : Table} {text : String}

theorem tokenize_empty (table : Table) : tokenize table "" = [] :=
  (tokenize_munched table "").unique .nil

/-- Wherever the tokens of a text are cut into two lists, the text is cut with
them. -/
theorem exists_append_of_tokenize {heads tails : List Token}
    (split : tokenize table text = heads ++ tails) :
    ∃ before after : String, text = before ++ after ∧ heads = tokenize table before ∧
      tails = (tokenize table after).map (fun token => token.shift before.utf8ByteSize) ∧
      table.Munched 0 before.toList heads := by
  have munched := tokenize_munched table text
  rw [split] at munched
  obtain ⟨before, after, textEq, munchedHeads, munchedTails⟩ := munched.exists_split
  refine ⟨String.ofList before, String.ofList after, ?_, ?_, ?_, ?_⟩
  · rw [← String.ofList_append, ← textEq, String.ofList_toList]
  · apply munchedHeads.unique
    simpa using tokenize_munched table (String.ofList before)
  · have moved := (tokenize_munched table (String.ofList after)).shift
      (String.ofList before).utf8ByteSize
    rw [← Text.byteLength_toList, String.toList_ofList, String.toList_ofList] at moved
    rw [← Text.byteLength_toList, String.toList_ofList]
    exact munchedTails.unique moved
  · rwa [String.toList_ofList]

/-- A text that is cut at its start or where one of its tokens ends has the tokens
of the two parts. -/
theorem tokenize_eq_append_shift {stop : Nat}
    (boundary : stop = 0 ∨ ∃ token ∈ tokenize table text, token.stop = stop) :
    ∃ before after : String, text = before ++ after ∧ before.utf8ByteSize = stop ∧
      tokenize table text =
        tokenize table before ++ (tokenize table after).map fun token => token.shift stop := by
  rcases boundary with rfl | ⟨token, member, rfl⟩
  · exact ⟨"", text, by simp, rfl, by simp [tokenize_empty, Token.shift]⟩
  · obtain ⟨earlier, tails, split⟩ := List.append_of_mem member
    rw [List.append_cons] at split
    obtain ⟨before, after, textEq, headsEq, tailsEq, munched⟩ := exists_append_of_tokenize split
    have stopEq : token.stop = before.utf8ByteSize := by
      rw [munched.stop_eq, Nat.zero_add, Text.byteLength_toList]
    refine ⟨before, after, textEq, stopEq.symm, ?_⟩
    rw [split, headsEq, tailsEq, stopEq]

/-- The text is cut behind a token for which the walk went back, so that the
second part begins with characters that were read before. -/
theorem tokenize_eq_append_shift_rollback :
    (∃ token ∈ tokenize sampleTable "abéabc", token.stop = 1) ∧
      ∃ before after : String, "abéabc" = before ++ after ∧ before.utf8ByteSize = 1 ∧
        tokenize sampleTable "abéabc" = tokenize sampleTable before ++
          (tokenize sampleTable after).map fun token => token.shift 1 := by
  have boundary : ∃ token ∈ tokenize sampleTable "abéabc", token.stop = 1 := by
    decide +kernel
  exact ⟨boundary, tokenize_eq_append_shift (.inr boundary)⟩

end MaximalMunch
