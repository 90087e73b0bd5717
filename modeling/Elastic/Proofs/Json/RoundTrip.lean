import Elastic.Proofs.Json.Lexing

namespace Elastic.Json

/-! A tree is read back from its compact and from its indented text, if its numbers are integers and
it is not nested too deeply. -/

section

variable {rest : List Char}

theorem stops_prettyItems (level : Nat) (items : List Json) :
    Stops (prettyItems level items ++ rest) := by
  cases items <;> exact stops_cons rfl

theorem stops_prettyMembers (level : Nat) (members : List (String × Json)) :
    Stops (prettyMembers level members ++ rest) := by
  cases members <;> exact stops_cons rfl

end

theorem isGap_of_mem_lineStart {level : Nat} {c : Char} (member : c ∈ lineStart level) :
    isGap c = true := by
  simp only [lineStart, List.mem_cons, List.mem_replicate] at member
  rcases member with rfl | ⟨-, rfl⟩ <;> rfl

mutual
theorem lexes_compact : (tree : Json) → tree.isPlain = true → ∀ {rest more}, Stops rest →
    Lexes rest more → Lexes (tree.compactChars ++ rest) (tree.tokens ++ more)
  | .null, _, _, _, _, lexes => .front rfl rfl lexes
  | .bool true, _, _, _, _, lexes => .front rfl rfl lexes
  | .bool false, _, _, _, _, lexes => .front rfl rfl lexes
  | .int _, plain, _, _, stops, lexes => .int plain stops lexes
  | .str value, _, _, _, _, lexes => .quoted value lexes
  | .arr [], _, _, _, _, lexes =>
      .mark rfl (fun _ => rfl) (.mark rfl (fun _ => rfl) lexes)
  | .arr (item :: items), plain, _, _, _, lexes => by
      simp only [isPlain, arePlain, Bool.and_eq_true] at plain
      have others := lexes_compactItems items plain.2 lexes
      have first := lexes_compact item plain.1 (stops_compactItems items _) others
      simp only [compactChars, tokens, List.cons_append, List.append_assoc]
      exact .mark rfl (fun _ => rfl) first
  | .obj [], _, _, _, _, lexes =>
      .mark rfl (fun _ => rfl) (.mark rfl (fun _ => rfl) lexes)
  | .obj ((name, value) :: members), plain, _, _, _, lexes => by
      simp only [isPlain, membersPlain, Bool.and_eq_true] at plain
      have others := lexes_compactMembers members plain.2 lexes
      have first := lexes_compact value plain.1 (stops_compactMembers members _) others
      simp only [compactChars, tokens, List.cons_append, List.append_assoc]
      exact .mark rfl (fun _ => rfl) (.quoted name (.mark rfl (fun _ => rfl) first))
termination_by structural tree => tree

theorem lexes_compactItems : (items : List Json) → arePlain items = true → ∀ {rest more},
    Lexes rest more → Lexes (compactItems items ++ rest) (itemTokens items ++ more)
  | [], _, _, _, lexes => .mark rfl (fun _ => rfl) lexes
  | item :: items, plain, _, _, lexes => by
      simp only [arePlain, Bool.and_eq_true] at plain
      have others := lexes_compactItems items plain.2 lexes
      have first := lexes_compact item plain.1 (stops_compactItems items _) others
      simp only [compactItems, itemTokens, List.cons_append, List.append_assoc]
      exact .mark rfl (fun _ => rfl) first
termination_by structural items => items

theorem lexes_compactMembers : (members : List (String × Json)) → membersPlain members = true →
    ∀ {rest more}, Lexes rest more →
      Lexes (compactMembers members ++ rest) (memberTokens members ++ more)
  | [], _, _, _, lexes => .mark rfl (fun _ => rfl) lexes
  | (name, value) :: members, plain, _, _, lexes => by
      simp only [membersPlain, Bool.and_eq_true] at plain
      have others := lexes_compactMembers members plain.2 lexes
      have first := lexes_compact value plain.1 (stops_compactMembers members _) others
      simp only [compactMembers, memberTokens, List.cons_append, List.append_assoc]
      exact .mark rfl (fun _ => rfl) (.quoted name (.mark rfl (fun _ => rfl) first))
termination_by structural members => members
end

theorem Lexes.line {level : Nat} {rest : List Char} {more : List Token} (lexes : Lexes rest more) :
    Lexes (lineStart level ++ rest) more :=
  lexes.gap fun _ => isGap_of_mem_lineStart

theorem Lexes.colon {rest : List Char} {more : List Token} (lexes : Lexes rest more) :
    Lexes (':' :: ' ' :: rest) (.colon :: more) := by
  have blank : ∀ c ∈ [' '], isGap c = true := by simp [isGap]
  exact .mark rfl (fun _ => rfl) (lexes.gap blank)

mutual
theorem lexes_pretty : (tree : Json) → tree.isPlain = true → ∀ (level : Nat) {rest more},
    Stops rest → Lexes rest more → Lexes (tree.prettyChars level ++ rest) (tree.tokens ++ more)
  | .null, _, _, _, _, _, lexes => .front rfl rfl lexes
  | .bool true, _, _, _, _, _, lexes => .front rfl rfl lexes
  | .bool false, _, _, _, _, _, lexes => .front rfl rfl lexes
  | .int _, plain, _, _, _, stops, lexes => .int plain stops lexes
  | .str value, _, _, _, _, _, lexes => .quoted value lexes
  | .arr [], _, _, _, _, _, lexes =>
      .mark rfl (fun _ => rfl) (.mark rfl (fun _ => rfl) lexes)
  | .arr (item :: items), plain, level, _, _, _, lexes => by
      simp only [isPlain, arePlain, Bool.and_eq_true] at plain
      have others := lexes_prettyItems items plain.2 level lexes
      have first := lexes_pretty item plain.1 (level + 1) (stops_prettyItems level items) others
      simp only [prettyChars, tokens, List.cons_append, List.append_assoc]
      exact .mark rfl (fun _ => rfl) first.line
  | .obj [], _, _, _, _, _, lexes =>
      .mark rfl (fun _ => rfl) (.mark rfl (fun _ => rfl) lexes)
  | .obj ((name, value) :: members), plain, level, _, _, _, lexes => by
      simp only [isPlain, membersPlain, Bool.and_eq_true] at plain
      have others := lexes_prettyMembers members plain.2 level lexes
      have first := lexes_pretty value plain.1 (level + 1) (stops_prettyMembers level members)
        others
      simp only [prettyChars, tokens, List.cons_append, List.append_assoc]
      exact .mark rfl (fun _ => rfl) (Lexes.quoted name first.colon).line
termination_by structural tree => tree

theorem lexes_prettyItems : (items : List Json) → arePlain items = true →
    ∀ (level : Nat) {rest more}, Lexes rest more →
      Lexes (prettyItems level items ++ rest) (itemTokens items ++ more)
  | [], _, _, _, _, lexes => by
      simp only [prettyItems, itemTokens, List.append_assoc]
      exact (Lexes.mark rfl (fun _ => rfl) lexes).line
  | item :: items, plain, level, _, _, lexes => by
      simp only [arePlain, Bool.and_eq_true] at plain
      have others := lexes_prettyItems items plain.2 level lexes
      have first := lexes_pretty item plain.1 (level + 1) (stops_prettyItems level items) others
      simp only [prettyItems, itemTokens, List.cons_append, List.append_assoc]
      exact .mark rfl (fun _ => rfl) first.line
termination_by structural items => items

theorem lexes_prettyMembers : (members : List (String × Json)) → membersPlain members = true →
    ∀ (level : Nat) {rest more}, Lexes rest more →
      Lexes (prettyMembers level members ++ rest) (memberTokens members ++ more)
  | [], _, _, _, _, lexes => by
      simp only [prettyMembers, memberTokens, List.append_assoc]
      exact (Lexes.mark rfl (fun _ => rfl) lexes).line
  | (name, value) :: members, plain, level, _, _, lexes => by
      simp only [membersPlain, Bool.and_eq_true] at plain
      have others := lexes_prettyMembers members plain.2 level lexes
      have first := lexes_pretty value plain.1 (level + 1) (stops_prettyMembers level members)
        others
      simp only [prettyMembers, memberTokens, List.cons_append, List.append_assoc]
      exact .mark rfl (fun _ => rfl) (Lexes.quoted name first.colon).line
termination_by structural members => members
end

theorem runTokens_firstItem (limit : Nat) (stack : List Frame) (item : Json) (rest : List Token) :
    runTokens limit (.firstItem stack) (item.tokens ++ rest) =
      runTokens limit (.value (.items [] :: stack)) (item.tokens ++ rest) := by
  cases item with
  | arr items => cases items <;> rfl
  | obj members => cases members <;> rfl
  | _ => rfl

mutual
theorem runTokens_tree (limit : Nat) : (tree : Json) → ∀ (stack : List Frame) (rest : List Token),
    stack.length + tree.depth ≤ limit →
      runTokens limit (.value stack) (tree.tokens ++ rest) =
        runTokens limit (deliver tree stack) rest
  | .null, _, _, _ | .bool _, _, _, _ | .int _, _, _, _ | .real _, _, _, _ | .str _, _, _, _ => rfl
  | .arr [], stack, rest, enough => by
      have room : stack.length < limit := enough
      simp [tokens, runTokens, advance, beginValue, room]
  | .arr (item :: items), stack, rest, enough => by
      simp only [depth, depthItems] at enough
      have room : stack.length < limit := by omega
      have first := runTokens_tree limit item (.items [] :: stack) (itemTokens items ++ rest)
        (by simp only [List.length_cons]; omega)
      have others := runTokens_items limit items [item] stack rest (by omega)
      simp only [tokens, List.cons_append, List.append_assoc, runTokens, advance, beginValue, room,
        if_true]
      rw [runTokens_firstItem, first]
      exact others
  | .obj [], stack, rest, enough => by
      have room : stack.length < limit := enough
      simp [tokens, runTokens, advance, beginValue, room]
  | .obj ((name, value) :: members), stack, rest, enough => by
      simp only [depth, depthMembers] at enough
      have room : stack.length < limit := by omega
      have first := runTokens_tree limit value (.members [] name :: stack)
        (memberTokens members ++ rest) (by simp only [List.length_cons]; omega)
      have others := runTokens_members limit members [(name, value)] stack rest (by omega)
      simp only [tokens, List.cons_append, List.append_assoc, runTokens, advance, beginValue, room,
        if_true]
      rw [first]
      exact others
termination_by structural tree => tree

theorem runTokens_items (limit : Nat) : (items : List Json) → ∀ (done : List Json)
    (stack : List Frame) (rest : List Token), stack.length + depthItems items < limit →
      runTokens limit (.afterItem done stack) (itemTokens items ++ rest) =
        runTokens limit (deliver (.arr (done.reverse ++ items)) stack) rest
  | [], done, stack, rest, _ => by
      simp [itemTokens, runTokens, advance]
  | item :: items, done, stack, rest, enough => by
      simp only [depthItems] at enough
      have first := runTokens_tree limit item (.items done :: stack) (itemTokens items ++ rest)
        (by simp only [List.length_cons]; omega)
      have others := runTokens_items limit items (item :: done) stack rest (by omega)
      simp only [itemTokens, List.cons_append, List.append_assoc, runTokens, advance]
      simp only [List.reverse_cons, List.append_assoc, List.singleton_append] at others
      rw [first]
      exact others
termination_by structural items => items

theorem runTokens_members (limit : Nat) : (members : List (String × Json)) →
    ∀ (done : List (String × Json)) (stack : List Frame) (rest : List Token),
      stack.length + depthMembers members < limit →
      runTokens limit (.afterMember done stack) (memberTokens members ++ rest) =
        runTokens limit (deliver (.obj (done.reverse ++ members)) stack) rest
  | [], done, stack, rest, _ => by
      simp [memberTokens, runTokens, advance]
  | (name, value) :: members, done, stack, rest, enough => by
      simp only [depthMembers] at enough
      have first := runTokens_tree limit value (.members done name :: stack)
        (memberTokens members ++ rest) (by simp only [List.length_cons]; omega)
      have others := runTokens_members limit members ((name, value) :: done) stack rest (by omega)
      simp only [memberTokens, List.cons_append, List.append_assoc, runTokens, advance]
      simp only [List.reverse_cons, List.append_assoc, List.singleton_append] at others
      rw [first]
      exact others
termination_by structural members => members
end

theorem read?_of_lexes {tree : Json} {text : List Char} (lexes : Lexes text tree.tokens)
    (shallow : tree.depth ≤ nestingLimit) : read? (String.ofList text) = some tree := by
  have tokens := readTokens?_of_lexes lexes (Nat.le_refl _)
  have run := runTokens_tree nestingLimit tree [] [] (by simpa using shallow)
  rw [List.append_nil] at run
  simp [read?, readWithin?, tokens, run, deliver, runTokens]

/-- A tree is read back from its compact text. -/
theorem read?_compact {tree : Json} (plain : tree.isPlain = true)
    (shallow : tree.depth ≤ nestingLimit) : read? tree.compact = some tree := by
  have lexes := lexes_compact tree plain stops_nil (.done rfl)
  rw [List.append_nil, List.append_nil] at lexes
  exact read?_of_lexes lexes shallow

/-- A tree is read back from its indented text. -/
theorem read?_pretty {tree : Json} (plain : tree.isPlain = true)
    (shallow : tree.depth ≤ nestingLimit) : read? tree.pretty = some tree := by
  have lexes := lexes_pretty tree plain 0 stops_nil (.done rfl)
  rw [List.append_nil, List.append_nil] at lexes
  exact read?_of_lexes lexes shallow

end Elastic.Json
