/-
Every JSON text is read as its value.

A text of a value is cut into the tokens of the value, since no two numbers stand side by side in
them.  A machine then reads the tokens: from a state that waits for a value it reaches, behind the
tokens of a value, the state that has it.  Within the limits of the reader this gives back the value
of every text, however its blanks and escapes are chosen.

Where only some members of an object matter, the others are skipped token by token.  That machine is
led past the tokens of a value in the same way, and the members that matter are found.

Main results:

* `ModuleDeps.Json.read_intercalate` — parts with commas between them are read one by one;
* `ModuleDeps.Json.tokenize_of_isText` — a text of a value is cut into the tokens of the value;
* `ModuleDeps.Json.run_tokens` — the machine reads the tokens of a value as the value;
* `ModuleDeps.Json.readFirst_of_isText`, `ModuleDeps.Json.read_of_isText` — **every text of a value
  is read as the value**;
* `ModuleDeps.Json.membersOf?_of_isText` — **the members that matter are found**.
-/

import ModuleDeps.Json.Members
import ModuleDeps.Proofs.JsonScanning

set_option relaxedAutoImplicit false
set_option autoImplicit false

namespace ModuleDeps.Json

/-! ### The tokens of a value -/

/-- Tokens on both sides of one that is no number stand apart if those on each side do. -/
theorem Apart.append_cons {as bs : List Token} {token : Token} (ha : Apart as) (hb : Apart bs)
    (h : token.isNumber = false) : Apart (as ++ token :: bs) := by
  refine List.isChain_append.2 ⟨ha, List.isChain_cons.2 ⟨?_, hb⟩, ?_⟩
  · intro b _ hnumber
    rw [h] at hnumber
    cases hnumber
  · intro a _ b hb' _
    cases hb'
    exact h

theorem apart_intercalate {parts : List (List Token)} (h : ∀ part ∈ parts, Apart part) :
    Apart ([.comma].intercalate parts) := by
  induction parts with
  | nil => exact List.isChain_nil
  | cons part parts ih =>
      have hparts := ih fun p hp => h p (List.mem_cons_of_mem _ hp)
      cases parts with
      | nil =>
          rw [List.intercalate_singleton]
          exact h part List.mem_cons_self
      | cons next parts =>
          rw [List.intercalate_cons_cons, List.append_assoc]
          exact (h part List.mem_cons_self).append_cons hparts rfl

theorem mem_intercalate {α : Type} {x sep : α} {parts : List (List α)}
    (h : x ∈ [sep].intercalate parts) : x = sep ∨ ∃ part ∈ parts, x ∈ part := by
  induction parts with
  | nil => simp at h
  | cons part parts ih =>
      cases parts with
      | nil =>
          rw [List.intercalate_singleton] at h
          exact Or.inr ⟨part, List.mem_cons_self, h⟩
      | cons next parts =>
          rw [List.intercalate_cons_cons, List.append_assoc] at h
          rcases List.mem_append.1 h with h | h
          · exact Or.inr ⟨part, List.mem_cons_self, h⟩
          · rcases List.mem_cons.1 h with h | h
            · exact Or.inl h
            · obtain h | ⟨p, hp, hx⟩ := ih h
              · exact Or.inl h
              · exact Or.inr ⟨p, List.mem_cons_of_mem _ hp, hx⟩

/-- Parts with separators between them start with the first part. -/
theorem exists_intercalate_append {α : Type} (sep part : List α) (parts : List (List α))
    (rest : List α) : ∃ more, sep.intercalate (part :: parts) ++ rest = part ++ more := by
  cases parts with
  | nil => exact ⟨rest, by rw [List.intercalate_singleton]⟩
  | cons next parts =>
      refine ⟨sep ++ (sep.intercalate (next :: parts) ++ rest), ?_⟩
      rw [List.intercalate_cons_cons, List.append_assoc, List.append_assoc]

/-- Parts with commas between them are read one by one.  Behind the items read so far, of which the
last one comes first, `f` reads a part as an item more, and `g` goes on behind it: at a comma it
leaves the next part to `f` again. -/
theorem read_intercalate {α ρ : Type} {write : α → List Token} (f g : List α → List Token → ρ)
    {items : List α}
    (hitem : ∀ x ∈ items, ∀ read rest, f read (write x ++ rest) = g (x :: read) rest)
    (hcomma : ∀ read rest, g read (.comma :: rest) = f read rest) (hne : items ≠ [])
    (read : List α) (rest : List Token) :
    f read ([.comma].intercalate (items.map write) ++ rest) = g (items.reverse ++ read) rest := by
  induction items generalizing read with
  | nil => exact absurd rfl hne
  | cons x items ih =>
      cases items with
      | nil =>
          rw [List.map_singleton, List.intercalate_singleton, hitem x List.mem_cons_self]
          rfl
      | cons y items =>
          have hrest := ih (fun z hz => hitem z (List.mem_cons_of_mem x hz))
            (List.cons_ne_nil y items) (x :: read)
          rw [List.map_cons] at hrest
          rw [List.map_cons, List.map_cons, List.intercalate_cons_cons, List.append_assoc,
            List.append_assoc, hitem x List.mem_cons_self, List.singleton_append, hcomma, hrest,
            List.reverse_cons (a := x), List.append_assoc, List.singleton_append]

/-- In the tokens of a value no two numbers stand side by side. -/
theorem apart_tokens {levels : Nat} {v : Json} (h : Fits levels v) : Apart (tokens v) := by
  induction levels generalizing v with
  | zero =>
      cases v with
      | array items => exact h.elim
      | object members => exact h.elim
      | _ => exact List.isChain_singleton _
  | succ levels ih =>
      have hnil : Apart [] := List.isChain_nil
      cases v with
      | array items =>
          rw [tokens_array]
          refine hnil.append_cons (Apart.append_cons (apart_intercalate ?_) hnil rfl) rfl
          intro part hpart
          obtain ⟨v, hv, rfl⟩ := List.mem_map.1 hpart
          exact ih (h v hv)
      | object members =>
          rw [tokens_object]
          refine hnil.append_cons (Apart.append_cons (apart_intercalate ?_) hnil rfl) rfl
          intro part hpart
          obtain ⟨m, hm, rfl⟩ := List.mem_map.1 hpart
          exact hnil.append_cons (hnil.append_cons (ih (h m hm)) rfl) rfl
      | _ => exact List.isChain_singleton _

theorem isReadableNumber_of_mem_tokens {levels : Nat} {v : Json} (h : Fits levels v)
    {literal : String} (hmem : .number literal ∈ tokens v) : IsReadableNumber literal := by
  induction levels generalizing v with
  | zero =>
      cases v with
      | array items => exact h.elim
      | object members => exact h.elim
      | number literal' =>
          cases List.mem_singleton.1 hmem
          exact h
      | _ => cases List.mem_singleton.1 hmem
  | succ levels ih =>
      cases v with
      | array items =>
          rw [tokens_array] at hmem
          obtain hmem | ⟨part, hpart, hmem⟩ := mem_intercalate (by simpa using hmem)
          · cases hmem
          · obtain ⟨v, hv, rfl⟩ := List.mem_map.1 hpart
            exact ih (h v hv) hmem
      | object members =>
          rw [tokens_object] at hmem
          obtain hmem | ⟨part, hpart, hmem⟩ := mem_intercalate (by simpa using hmem)
          · cases hmem
          · obtain ⟨m, hm, rfl⟩ := List.mem_map.1 hpart
            exact ih (h m hm) (by simpa using hmem)
      | number literal' =>
          cases List.mem_singleton.1 hmem
          exact h
      | _ => cases List.mem_singleton.1 hmem

/-- **A text of a value is cut into the tokens of the value.** -/
theorem tokenize_of_isText {levels : Nat} {v : Json} {text : String} (h : Fits levels v)
    (htext : IsText v text) : tokenize text.toList = tokens v :=
  tokensFrom_of_spells htext (fun _ => isReadableNumber_of_mem_tokens h) (apart_tokens h) []

/-! ### The machine -/

namespace State

theorem run_of_step {state : State} {token : Token} (next : State)
    (h : state.step token = .ok next) (rest : List Token) :
    state.run (token :: rest) = next.run rest := by
  cases state with
  | done v => cases h
  | _ => simp only [run, h]

theorem run_done (v : Json) : (State.done v).run [] = .ok (v, false) := rfl

/-- The tokens of a value do not start with the end of an array. -/
theorem run_firstItem (stack : List Frame) (v : Json) (rest : List Token) :
    (State.firstItem stack).run (tokens v ++ rest) =
      (State.value (.array [] :: stack)).run (tokens v ++ rest) := by
  cases v with
  | array items =>
      rw [tokens]
      rfl
  | object members =>
      rw [tokens]
      rfl
  | _ => rfl

theorem run_firstName (stack : List Frame) (name : String) (rest : List Token) :
    (State.firstName stack).run (.string name :: rest) =
      (State.nextName stack []).run (.string name :: rest) := rfl

/-- Items with commas between them are read one by one, if each of them is read as it is. -/
theorem run_items {items : List Json} {stack : List Frame}
    (hitems : ∀ v ∈ items, ∀ read rest,
      (State.value (.array read :: stack)).run (tokens v ++ rest) =
        (finish v (.array read :: stack)).run rest)
    (hne : items ≠ []) (rest : List Token) :
    (State.value (.array [] :: stack)).run
        ([.comma].intercalate (items.map tokens) ++ .closeArray :: rest) =
      (finish (.array items) stack).run rest := by
  have hread := read_intercalate (fun read => (State.value (.array read :: stack)).run)
    (fun read => (State.afterItem stack read).run) hitems
    (fun read => run_of_step (.value (.array read :: stack)) rfl) hne [] (.closeArray :: rest)
  rwa [List.append_nil, run_of_step (finish _ stack) rfl, List.reverse_reverse] at hread

/-- Members with commas between them are read one by one, if the value of each of them is read as it
is. -/
theorem run_members {members : List (String × Json)} {stack : List Frame}
    (hmembers : ∀ m ∈ members, ∀ read rest,
      (State.value (.object read m.1 :: stack)).run (tokens m.2 ++ rest) =
        (finish m.2 (.object read m.1 :: stack)).run rest)
    (hne : members ≠ []) (rest : List Token) :
    (State.nextName stack []).run
        ([.comma].intercalate (members.map fun m => .string m.1 :: .colon :: tokens m.2) ++
          .closeObject :: rest) =
      (finish (.object members) stack).run rest := by
  have hmember : ∀ m ∈ members, ∀ read more,
      (State.nextName stack read).run (.string m.1 :: .colon :: tokens m.2 ++ more) =
        (State.afterMember stack (m :: read)).run more := by
    intro m hm read more
    rw [List.cons_append, List.cons_append, run_of_step (.colon stack read m.1) rfl,
      run_of_step (.value (.object read m.1 :: stack)) rfl, hmembers m hm, finish]
  have hread := read_intercalate (fun read => (State.nextName stack read).run)
    (fun read => (State.afterMember stack read).run) hmember
    (fun read => run_of_step (.nextName stack read) rfl) hne [] (.closeObject :: rest)
  rwa [List.append_nil, run_of_step (finish _ stack) rfl, List.reverse_reverse] at hread

end State

open State

/-- **The machine reads the tokens of a value as the value**, if the arrays and objects that are
open already leave enough levels. -/
theorem run_tokens {levels : Nat} {v : Json} (h : Fits levels v) (stack : List Frame)
    (hstack : stack.length + levels ≤ maxDepth) (rest : List Token) :
    (State.value stack).run (tokens v ++ rest) = (finish v stack).run rest := by
  induction levels generalizing v stack rest with
  | zero =>
      cases v with
      | array items => exact h.elim
      | object members => exact h.elim
      | _ => exact run_of_step _ rfl rest
  | succ levels ih =>
      have hroom : stack.length < maxDepth := by omega
      cases v with
      | array items =>
          have hopen : (State.value stack).step .openArray = .ok (.firstItem stack) := by
            simp only [step, startValue, hroom, if_true]
          rw [tokens_array, List.cons_append, List.append_assoc, run_of_step _ hopen]
          cases items with
          | nil => exact run_of_step _ rfl rest
          | cons w items =>
              obtain ⟨more, hmore⟩ := exists_intercalate_append [Token.comma] (tokens w)
                (items.map tokens) (.closeArray :: rest)
              rw [List.map_cons, List.singleton_append, hmore, run_firstItem, ← hmore]
              refine run_items (fun v hv read rest => ?_) (List.cons_ne_nil w items) rest
              exact ih (h v hv) _ (by simp only [List.length_cons]; omega) rest
      | object members =>
          have hopen : (State.value stack).step .openObject = .ok (.firstName stack) := by
            simp only [step, startValue, hroom, if_true]
          rw [tokens_object, List.cons_append, List.append_assoc, run_of_step _ hopen]
          cases members with
          | nil => exact run_of_step _ rfl rest
          | cons m members =>
              obtain ⟨more, hmore⟩ := exists_intercalate_append [Token.comma]
                (.string m.1 :: .colon :: tokens m.2)
                (members.map fun m => .string m.1 :: .colon :: tokens m.2) (.closeObject :: rest)
              rw [List.map_cons, List.singleton_append, hmore, List.cons_append, run_firstName,
                ← List.cons_append, ← hmore]
              refine run_members (fun m hm read rest => ?_) (List.cons_ne_nil m members) rest
              exact ih (h m hm) _ (by simp only [List.length_cons]; omega) rest
      | _ => exact run_of_step _ rfl rest

/-- **Every text of a value is read as the value**, and nothing is left over. -/
theorem readFirst_of_isText {levels : Nat} {v : Json} {text : String} (h : Fits levels v)
    (hlevels : levels ≤ maxDepth) (htext : IsText v text) : readFirst text = .ok (v, false) := by
  have hrun := run_tokens h [] (by simpa using hlevels) []
  rw [List.append_nil] at hrun
  rw [readFirst, tokenize_of_isText h htext, hrun, finish, run_done]

theorem read_of_isText {levels : Nat} {v : Json} {text : String} (h : Fits levels v)
    (hlevels : levels ≤ maxDepth) (htext : IsText v text) : read text = .ok v := by
  rw [read, readFirst_of_isText h hlevels htext]
  rfl

/-! ### Skipping -/

theorem skipAll_of_skipToken {expected expected' : Expected} {nests nests' : List Nest}
    {token : Token} (h : skipToken expected nests token = some (expected', nests'))
    (rest : List Token) :
    skipAll expected nests (token :: rest) = skipAll expected' nests' rest := by
  rw [skipAll, h]
  rintro rfl rfl
  cases h

theorem skipValue_eq (tokens : List Token) : skipValue tokens = skipAll .value [] tokens := by
  cases tokens with
  | nil => rfl
  | cons token tokens => rfl

/-- The tokens of a value do not start with the end of an array. -/
theorem skipAll_firstItem (nests : List Nest) (v : Json) (rest : List Token) :
    skipAll .firstItem (.array :: nests) (tokens v ++ rest) =
      skipAll .value (.array :: nests) (tokens v ++ rest) := by
  cases v with
  | array items =>
      rw [tokens]
      rfl
  | object members =>
      rw [tokens]
      rfl
  | _ => rfl

theorem skipAll_items {items : List Json} {nests : List Nest}
    (hitems : ∀ v ∈ items, ∀ rest, skipAll .value (.array :: nests) (tokens v ++ rest) =
      skipAll .more (.array :: nests) rest)
    (hne : items ≠ []) (rest : List Token) :
    skipAll .value (.array :: nests)
        ([.comma].intercalate (items.map tokens) ++ .closeArray :: rest) =
      skipAll .more nests rest := by
  have hskip := read_intercalate (fun _ => skipAll .value (.array :: nests))
    (fun _ => skipAll .more (.array :: nests)) (fun v hv _ => hitems v hv)
    (fun _ => skipAll_of_skipToken rfl) hne [] (.closeArray :: rest)
  rwa [skipAll_of_skipToken rfl] at hskip

theorem skipAll_members {members : List (String × Json)} {nests : List Nest}
    (hmembers : ∀ m ∈ members, ∀ rest, skipAll .value (.object :: nests) (tokens m.2 ++ rest) =
      skipAll .more (.object :: nests) rest)
    (hne : members ≠ []) (rest : List Token) :
    skipAll .name (.object :: nests)
        ([.comma].intercalate (members.map fun m => .string m.1 :: .colon :: tokens m.2) ++
          .closeObject :: rest) =
      skipAll .more nests rest := by
  have hmember : ∀ m ∈ members, ∀ more,
      skipAll .name (.object :: nests) (.string m.1 :: .colon :: tokens m.2 ++ more) =
        skipAll .more (.object :: nests) more := by
    intro m hm more
    rw [List.cons_append, List.cons_append, skipAll_of_skipToken rfl, skipAll_of_skipToken rfl,
      hmembers m hm]
  have hskip := read_intercalate (fun _ => skipAll .name (.object :: nests))
    (fun _ => skipAll .more (.object :: nests)) (fun m hm _ => hmember m hm)
    (fun _ => skipAll_of_skipToken rfl) hne [] (.closeObject :: rest)
  rwa [skipAll_of_skipToken rfl] at hskip

/-- A value is skipped by its tokens, to any depth. -/
theorem skipAll_tokens {levels : Nat} {v : Json} (h : Fits levels v) (nests : List Nest)
    (rest : List Token) :
    skipAll .value nests (tokens v ++ rest) = skipAll .more nests rest := by
  induction levels generalizing v nests rest with
  | zero =>
      cases v with
      | array items => exact h.elim
      | object members => exact h.elim
      | _ => exact skipAll_of_skipToken rfl rest
  | succ levels ih =>
      cases v with
      | array items =>
          rw [tokens_array, List.cons_append, List.append_assoc, List.singleton_append,
            skipAll_of_skipToken rfl]
          cases items with
          | nil => exact skipAll_of_skipToken rfl rest
          | cons w items =>
              obtain ⟨more, hmore⟩ := exists_intercalate_append [Token.comma] (tokens w)
                (items.map tokens) (.closeArray :: rest)
              rw [List.map_cons, hmore, skipAll_firstItem, ← hmore]
              exact skipAll_items (fun v hv rest => ih (h v hv) _ rest)
                (List.cons_ne_nil w items) rest
      | object members =>
          rw [tokens_object, List.cons_append, List.append_assoc, List.singleton_append,
            skipAll_of_skipToken rfl]
          cases members with
          | nil => exact skipAll_of_skipToken rfl rest
          | cons m members =>
              have hname : ∀ more : List Token,
                  skipAll .firstName (.object :: nests) (.string m.1 :: more) =
                    skipAll .name (.object :: nests) (.string m.1 :: more) := fun _ => rfl
              obtain ⟨more, hmore⟩ := exists_intercalate_append [Token.comma]
                (.string m.1 :: .colon :: tokens m.2)
                (members.map fun m => .string m.1 :: .colon :: tokens m.2) (.closeObject :: rest)
              rw [List.map_cons, hmore, List.cons_append, hname, ← List.cons_append, ← hmore]
              exact skipAll_members (fun m hm rest => ih (h m hm) _ rest)
                (List.cons_ne_nil m members) rest
      | _ => exact skipAll_of_skipToken rfl rest

theorem skipValue_tokens {levels : Nat} {v : Json} (h : Fits levels v) (rest : List Token) :
    skipValue (tokens v ++ rest) = some rest := by
  rw [skipValue_eq, skipAll_tokens h, skipAll]

/-! ### Members -/

/-- Is the member one that matters? -/
def memberMatters (matters : String → Bool) (m : String × Json) : Bool :=
  matters m.1

theorem addMember_tokens {levels : Nat} {v : Json} (h : Fits levels v) (hlevels : levels ≤ maxDepth)
    (matters : String → Bool) (read : List (String × Json)) (name : String) (rest : List Token) :
    addMember matters read name (tokens v ++ rest) rest =
      some ([(name, v)].filter (memberMatters matters) ++ read) := by
  have hrun := run_tokens h [] (by simpa using hlevels) []
  have hvalue : valueOf? (tokens v) = some v := by
    rw [List.append_nil] at hrun
    rw [valueOf?, hrun, finish, run_done]
  have htake : (tokens v ++ rest).take ((tokens v ++ rest).length - rest.length) = tokens v := by
    rw [List.length_append, Nat.add_sub_cancel, List.take_left]
  rw [addMember, htake, hvalue]
  by_cases hname : matters name = true
  · rw [if_pos hname, List.filter_cons_of_pos (by exact hname)]
    rfl
  · rw [if_neg hname, List.filter_cons_of_neg (by exact hname)]
    rfl

/-- What is found behind a member: the object ends, or a comma and the next member follow. -/
def membersBehind (matters : String → Bool) (read : List (String × Json)) :
    List Token → Option (List (String × Json))
  | [.closeObject] => some (read.filter (memberMatters matters)).reverse
  | .comma :: next => membersFrom matters (read.filter (memberMatters matters)) next
  | _ => none

theorem membersFrom_member {levels : Nat} {m : String × Json} (h : Fits levels m.2)
    (hlevels : levels ≤ maxDepth) (matters : String → Bool) (read : List (String × Json))
    (rest : List Token) :
    membersFrom matters (read.filter (memberMatters matters))
        (.string m.1 :: .colon :: tokens m.2 ++ rest) =
      membersBehind matters (m :: read) rest := by
  have hfilter : (m :: read).filter (memberMatters matters) =
      [m].filter (memberMatters matters) ++ read.filter (memberMatters matters) := by
    rw [← List.filter_append, List.singleton_append]
  rw [List.cons_append, List.cons_append, membersFrom]
  split
  · next hnone =>
      rw [skipValue_tokens h] at hnone
      cases hnone
  · next rest' hrest =>
      rw [skipValue_tokens h] at hrest
      cases hrest
      rw [addMember_tokens h hlevels, ← hfilter]
      cases rest with
      | nil => rfl
      | cons token rest => cases token <;> cases rest <;> rfl

theorem membersFrom_tokens {levels : Nat} {members : List (String × Json)}
    (h : ∀ m ∈ members, Fits levels m.2) (hlevels : levels ≤ maxDepth) (hne : members ≠ [])
    (matters : String → Bool) :
    membersFrom matters []
        ([.comma].intercalate (members.map fun m => .string m.1 :: .colon :: tokens m.2) ++
          [.closeObject]) =
      some (members.filter (memberMatters matters)) := by
  have hfound := read_intercalate
    (fun read => membersFrom matters (read.filter (memberMatters matters)))
    (membersBehind matters) (fun m hm => membersFrom_member (h m hm) hlevels matters)
    (fun _ _ => rfl) hne [] [.closeObject]
  rwa [List.append_nil, membersBehind, List.filter_reverse, List.reverse_reverse] at hfound

/-- **The members that matter are found**, in order, in every text of the object. -/
theorem membersOf?_of_isText {levels : Nat} {members : List (String × Json)} {text : String}
    (h : Fits (levels + 1) (.object members)) (hlevels : levels ≤ maxDepth)
    (htext : IsText (.object members) text) (matters : String → Bool) :
    membersOf? matters text = some (members.filter (memberMatters matters)) := by
  rw [membersOf?, tokenize_of_isText h htext, tokens_object]
  cases members with
  | nil => rfl
  | cons m members =>
      have hmembers := membersFrom_tokens h hlevels (List.cons_ne_nil m members) matters
      rw [List.map_cons] at hmembers ⊢
      obtain ⟨more, hmore⟩ := exists_intercalate_append [Token.comma]
        (.string m.1 :: .colon :: tokens m.2)
        (members.map fun m => .string m.1 :: .colon :: tokens m.2) [.closeObject]
      rw [hmore] at hmembers ⊢
      exact hmembers

/-! ### Lists -/

/-- What is written item by item is read item by item. -/
theorem mapM_map_eq_map {α β γ : Type} {write : α → β} {read? : β → Option γ} {f : α → γ}
    {xs : List α} (h : ∀ x ∈ xs, read? (write x) = some (f x)) :
    (xs.map write).mapM read? = some (xs.map f) := by
  induction xs with
  | nil => rfl
  | cons x xs ih =>
      have hxs := ih fun y hy => h y (List.mem_cons_of_mem x hy)
      rw [List.map_cons, List.mapM_cons, h x List.mem_cons_self, hxs]
      rfl

theorem mapM_map_of_forall {α β : Type} {write : α → β} {read? : β → Option α} {xs : List α}
    (h : ∀ x ∈ xs, read? (write x) = some x) : (xs.map write).mapM read? = some xs := by
  have hmap : (xs.map write).mapM read? = some (xs.map id) := mapM_map_eq_map h
  rwa [List.map_id] at hmap

/-- Everything that is read from a list is read from an item of it. -/
theorem exists_of_mem_mapM {α β : Type} {read? : α → Option β} {xs : List α} {ys : List β}
    (h : xs.mapM read? = some ys) {y : β} (hy : y ∈ ys) : ∃ x ∈ xs, read? x = some y := by
  induction xs generalizing ys with
  | nil =>
      cases h
      exact absurd hy List.not_mem_nil
  | cons x xs ih =>
      rw [List.mapM_cons, Option.bind_eq_bind, Option.bind_eq_some_iff] at h
      obtain ⟨z, hz, h⟩ := h
      rw [Option.bind_eq_bind, Option.bind_eq_some_iff] at h
      obtain ⟨zs, hzs, h⟩ := h
      cases h
      rcases List.mem_cons.1 hy with rfl | hy
      · exact ⟨x, List.mem_cons_self, hz⟩
      · obtain ⟨x', hx', hread⟩ := ih hzs hy
        exact ⟨x', List.mem_cons_of_mem x hx', hread⟩

/-- Strings are read back. -/
theorem toStrings?_strings (ss : List String) : (array (ss.map string)).toStrings? = some ss :=
  mapM_map_of_forall fun _ _ => rfl

theorem fits_strings (ss : List String) (levels : Nat) :
    Fits (levels + 1) (array (ss.map string)) := by
  intro v hv
  obtain ⟨s, -, rfl⟩ := List.mem_map.1 hv
  exact fits_string levels s

end ModuleDeps.Json
