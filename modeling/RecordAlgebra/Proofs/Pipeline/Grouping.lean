import Mathlib.Data.List.Induction
import RecordAlgebra.Proofs.Pipeline.Tallies
import RecordAlgebra.Proofs.Plan.Elements

/-!
# Groups of documents

All groups are kept at once while documents come one by one, and each document changes the
tallies of its group. The outcome is the same as if the documents were first put into groups
and each group was aggregated by itself: every tally has seen the members of its group in
order. So the results do not depend on how the members of different groups are interleaved.
-/

namespace RecordAlgebra

/-- Lists that are related through lists between them are related element by element. -/
theorem exists_forall₂_iff {α β γ : Type} {R : α → β → Prop} {S : β → γ → Prop} {as : List α}
    {cs : List γ} : (∃ bs, List.Forall₂ R as bs ∧ List.Forall₂ S bs cs) ↔
      List.Forall₂ (fun a c => ∃ b, R a b ∧ S b c) as cs := by
  induction as generalizing cs with
  | nil => simp
  | cons a as ih =>
      rw [List.forall₂_cons_left_iff]
      simp only [← ih]
      constructor
      · rintro ⟨bs, hR, hS⟩
        cases hR with
        | cons hab has =>
            cases hS with
            | cons hbc hbs => exact ⟨_, _, ⟨_, hab, hbc⟩, ⟨_, has, hbs⟩, rfl⟩
      · rintro ⟨c, cs, ⟨b, hab, hbc⟩, ⟨bs, has, hbs⟩, rfl⟩
        exact ⟨b :: bs, .cons hab has, .cons hbc hbs⟩

namespace Value

mutual

/-- Equality in documents, where no items occur, always has an outcome. -/
theorem exists_equal_detached (v u : Value) :
    ∃ same, equal ItemAccess.detached.equal v u = .ok same := by
  cases v with
  | list as =>
      cases u with
      | list bs =>
          rw [equal]
          split
          · exact exists_equalElements_detached as bs
          · exact ⟨false, rfl⟩
      | _ => exact ⟨_, rfl⟩
  | record as =>
      cases u with
      | record bs =>
          rw [equal]
          split
          · exact exists_equalFields_detached as bs
          · exact ⟨false, rfl⟩
      | _ => exact ⟨_, rfl⟩
  | _ => cases u <;> exact ⟨_, rfl⟩

theorem exists_equalElements_detached (as bs : List Value) :
    ∃ same, equalElements ItemAccess.detached.equal as bs = .ok same := by
  cases as with
  | nil => cases bs <;> exact ⟨_, rfl⟩
  | cons a as =>
      cases bs with
      | nil => exact ⟨_, rfl⟩
      | cons b bs =>
          obtain ⟨same, h⟩ := exists_equal_detached a b
          rw [equalElements, h]
          cases same with
          | true => exact exists_equalElements_detached as bs
          | false => exact ⟨false, rfl⟩

theorem exists_equalFields_detached (as bs : Fields Value) :
    ∃ same, equalFields ItemAccess.detached.equal as bs = .ok same := by
  cases as with
  | nil => exact ⟨_, rfl⟩
  | cons field as =>
      obtain ⟨name, a⟩ := field
      rw [equalFields]
      cases Fields.get? bs name with
      | none => exact ⟨false, rfl⟩
      | some b =>
          obtain ⟨same, h⟩ := exists_equal_detached a b
          simp only [h]
          cases same with
          | true => exact exists_equalFields_detached as bs
          | false => exact ⟨false, rfl⟩

end

namespace Key

/-- Whether two keys of documents are equal. -/
def equals (key other : Key) : Bool := (key.equal ItemAccess.detached other).toOption.getD false

theorem equal_eq_equals (key other : Key) :
    key.equal ItemAccess.detached other = .ok (key.equals other) := by
  obtain ⟨same, h⟩ : ∃ same, key.equal ItemAccess.detached other = .ok same := by
    rw [Key.equal]
    split
    · exact exists_equal_detached key.value other.value
    · exact ⟨false, rfl⟩
  rw [equals, h]
  rfl

theorem find?_eq_findIdx? {α : Type} (key : Key) (entries : List (Key × α)) :
    key.find? ItemAccess.detached entries =
      .ok (entries.findIdx? fun entry => key.equals entry.1) := by
  induction entries with
  | nil => rfl
  | cons entry rest ih =>
      rw [find?, equal_eq_equals, List.findIdx?_cons, ih]
      cases key.equals entry.1 <;> rfl

end Key

end Value

namespace Pipeline.Grouping

section Partition

variable {α : Type}

def withKey (key : Value.Key) (keyed : List (Value.Key × α)) : List α :=
  (keyed.filter fun entry => entry.1.equals key).map Prod.snd

def withoutKey (key : Value.Key) (keyed : List (Value.Key × α)) : List (Value.Key × α) :=
  keyed.filter fun entry => !entry.1.equals key

/-- Members with equal keys are put together, in order of the first occurrences of keys. -/
def partition : List (Value.Key × α) → List (Value.Key × List α)
  | [] => []
  | (key, first) :: rest => (key, first :: withKey key rest) :: partition (withoutKey key rest)
termination_by keyed => keyed.length
decreasing_by exact Nat.lt_succ_of_le (List.length_filter_le _ _)

/-- A further member belongs to the first group whose key it has. -/
def place (key : Value.Key) (member : α) :
    List (Value.Key × List α) → List (Value.Key × List α)
  | [] => [(key, [member])]
  | (other, members) :: rest =>
      if key.equals other then (other, members ++ [member]) :: rest
      else (other, members) :: place key member rest

theorem partition_concat (keyed : List (Value.Key × α)) (key : Value.Key) (member : α) :
    partition (keyed ++ [(key, member)]) = place key member (partition keyed) := by
  induction keyed using partition.induct with
  | case1 => simp [partition, withKey, withoutKey, place]
  | case2 first a rest ih =>
      rw [List.cons_append, partition, partition, place]
      cases hequals : key.equals first with
      | true => simp [withKey, withoutKey, List.filter_append, hequals]
      | false =>
          have hothers : withoutKey first (rest ++ [(key, member)]) =
              withoutKey first rest ++ [(key, member)] := by
            simp [withoutKey, List.filter_append, hequals]
          have hmembers : withKey first (rest ++ [(key, member)]) = withKey first rest := by
            simp [withKey, List.filter_append, hequals]
          rw [hothers, hmembers, ih]
          rfl

/-- Members that all have the same key are one group. -/
theorem partition_of_key {key : Value.Key} (hkey : key.equals key = true) (member : α)
    (members : List α) : partition ((member :: members).map fun member => (key, member)) =
      [(key, member :: members)] := by
  have hwith : withKey key (members.map fun member => (key, member)) = members := by
    rw [withKey, List.filter_eq_self.2 (by simp [hkey]), List.map_map]
    exact List.map_id members
  have hwithout : withoutKey key (members.map fun member => (key, member)) = [] := by
    rw [withoutKey, List.filter_eq_nil_iff]
    simp [hkey]
  rw [List.map_cons, partition, hwith, hwithout, partition]

end Partition

section Tallying

/-- The tally of an accumulator after these documents. -/
def tally (accumulator : Accumulator) (members : List Json) : Except Error Tally :=
  members.foldlM (fun tally document => do tally.add (← accumulator.input document))
    accumulator.start

theorem tally_concat_ok_iff {accumulator : Accumulator} {members : List Json} {document : Json}
    {result : Tally} : tally accumulator (members ++ [document]) = .ok result ↔
      ∃ before, tally accumulator members = .ok before ∧
        (do before.add (← accumulator.input document)) = .ok result := by
  rw [tally, List.foldlM_append, bind_ok_iff]
  simp only [List.foldlM_cons, List.foldlM_nil, bind_pure, tally]

/-- The tally is that of what the accumulator takes of the documents, and what it takes is found
before or after that. -/
theorem tally_ok_iff {accumulator : Accumulator} {members : List Json} {result : Tally} :
    tally accumulator members = .ok result ↔ ∃ vs, members.mapM accumulator.input = .ok vs ∧
      accumulator.start.addAll vs = .ok result := by
  induction members using List.reverseRecOn generalizing result with
  | nil => exact ⟨fun h => ⟨[], rfl, h⟩, fun ⟨_, hvs, h⟩ => by cases hvs; exact h⟩
  | append_singleton members document ih =>
      rw [tally_concat_ok_iff, List.mapM_append]
      simp only [ih, bind_ok_iff, Tally.addAll]
      constructor
      · rintro ⟨before, ⟨vs, hvs, hbefore⟩, v, hv, hresult⟩
        refine ⟨vs ++ [v], ⟨vs, hvs, [v], ?_, rfl⟩, ?_⟩
        · rw [List.mapM_cons, hv]
          rfl
        · rw [List.foldlM_append, hbefore]
          exact (bind_pure _).trans hresult
      · rintro ⟨_, ⟨vs, hvs, last, hlast, ⟨⟩⟩, hresult⟩
        rw [List.mapM_cons, bind_ok_iff] at hlast
        obtain ⟨v, hv, hlast⟩ := hlast
        cases hlast
        rw [List.foldlM_append, bind_ok_iff] at hresult
        obtain ⟨before, hbefore, hresult⟩ := hresult
        exact ⟨before, ⟨vs, hvs, hbefore⟩, v, hv, (bind_pure _).symm.trans hresult⟩

theorem addDocument_ok_iff {R : Accumulator → Tally → Prop} {document : Json}
    {accumulators : List Accumulator} {results : List Tally} :
    (∃ tallies, List.Forall₂ R accumulators tallies ∧
      addDocument document accumulators tallies = .ok results) ↔
      List.Forall₂ (fun accumulator result => ∃ before, R accumulator before ∧
        (do before.add (← accumulator.input document)) = .ok result) accumulators results := by
  induction accumulators generalizing results with
  | nil => simp [addDocument, eq_comm]
  | cons accumulator accumulators ih =>
      rw [List.forall₂_cons_left_iff]
      simp only [← ih]
      constructor
      · rintro ⟨_, hR, h⟩
        cases hR with
        | @cons _ before _ tallies hfirst hrest =>
            simp only [addDocument, bind_ok_iff] at h
            obtain ⟨v, hv, result, hresult, others, hothers, h⟩ := h
            cases h
            exact ⟨result, others, ⟨before, hfirst, bind_ok_iff.2 ⟨v, hv, hresult⟩⟩,
              ⟨tallies, hrest, hothers⟩, rfl⟩
      · rintro ⟨result, others, ⟨before, hfirst, hresult⟩, ⟨tallies, hrest, hothers⟩, rfl⟩
        obtain ⟨v, hv, hresult⟩ := bind_ok_iff.1 hresult
        refine ⟨before :: tallies, .cons hfirst hrest, ?_⟩
        simp only [addDocument, bind_ok_iff]
        exact ⟨v, hv, result, hresult, others, hothers, rfl⟩

end Tallying

/-- Adds a document to the first group that has its key. -/
def addTo (accumulators : List Accumulator) (key : Value.Key) (document : Json) :
    Groups → Except Error Groups
  | [] => do
      let tallies ← addDocument document accumulators (accumulators.map Accumulator.start)
      .ok [(key, tallies)]
  | (other, tallies) :: rest =>
      if key.equals other then do
        let tallies ← addDocument document accumulators tallies
        .ok ((other, tallies) :: rest)
      else (addTo accumulators key document rest).map ((other, tallies) :: ·)

theorem step_eq_addTo (grouping : Grouping) (groups : Groups) (document : Json) :
    grouping.step groups document = grouping.keyOf document >>= fun key =>
      addTo (grouping.accumulators.map Prod.snd) key document groups := by
  rw [step]
  congr 1
  funext key
  rw [Value.Key.find?_eq_findIdx?]
  generalize grouping.accumulators.map Prod.snd = accumulators
  induction groups with
  | nil => rfl
  | cons group rest ih =>
      obtain ⟨other, tallies⟩ := group
      rw [addTo, List.findIdx?_cons, ← ih]
      cases key.equals other with
      | true => rfl
      | false =>
          cases rest.findIdx? fun group => key.equals group.1 with
          | none =>
              simp only [bind, Except.bind]
              cases addDocument document accumulators (accumulators.map Accumulator.start) <;> rfl
          | some position =>
              simp only [bind, Except.bind, Bool.false_eq_true, if_false, Option.map_some,
                List.getElem?_cons_succ, List.set_cons_succ]
              cases rest[position]? with
              | none => rfl
              | some group =>
                  obtain ⟨found, before⟩ := group
                  dsimp only
                  cases addDocument document accumulators before <;> rfl

/-- What is kept for a group: its key and the tallies of its members. -/
def Tallied (accumulators : List Accumulator) (group : Value.Key × List Json)
    (kept : Value.Key × List Tally) : Prop :=
  kept.1 = group.1 ∧
    List.Forall₂ (fun accumulator result => tally accumulator group.2 = .ok result)
      accumulators kept.2

section Groups

variable {accumulators : List Accumulator} {key : Value.Key} {document : Json}
  {groups : List (Value.Key × List Json)} {kept : Groups}

theorem tallies_nil_iff {tallies : List Tally} :
    List.Forall₂ (fun accumulator before => tally accumulator [] = .ok before) accumulators
      tallies ↔ accumulators.map Accumulator.start = tallies := by
  have hnil (accumulator : Accumulator) (before : Tally) :
      tally accumulator [] = .ok before ↔ accumulator.start = before :=
    ⟨Except.ok.inj, congrArg _⟩
  simp only [hnil]
  rw [← List.forall₂_map_left_iff (R := Eq) (f := Accumulator.start), List.forall₂_eq_eq_eq]

theorem tallies_concat_iff {members : List Json} {result : List Tally} :
    (∃ tallies, List.Forall₂ (fun accumulator before => tally accumulator members = .ok before)
      accumulators tallies ∧ addDocument document accumulators tallies = .ok result) ↔
    List.Forall₂ (fun accumulator result => tally accumulator (members ++ [document]) = .ok result)
      accumulators result := by
  rw [addDocument_ok_iff]
  simp only [tally_concat_ok_iff]

/-- What is kept of the groups with one more document is found from what was kept before. -/
theorem addTo_ok_iff : (∃ before, List.Forall₂ (Tallied accumulators) groups before ∧
    addTo accumulators key document before = .ok kept) ↔
      List.Forall₂ (Tallied accumulators) (place key document groups) kept := by
  induction groups generalizing kept with
  | nil =>
      simp only [List.forall₂_nil_left_iff, exists_eq_left, addTo, place, bind_ok_iff,
        List.forall₂_cons_left_iff]
      constructor
      · rintro ⟨tallies, htallies, ⟨⟩⟩
        exact ⟨(key, tallies), [],
          ⟨rfl, tallies_concat_iff.1 ⟨_, tallies_nil_iff.2 rfl, htallies⟩⟩, rfl, rfl⟩
      · rintro ⟨⟨other, tallies⟩, _, ⟨hkey, h⟩, rfl, rfl⟩
        obtain rfl : other = key := hkey
        obtain ⟨_, hnil, htallies⟩ := tallies_concat_iff.2
          (show List.Forall₂ (fun accumulator result => tally accumulator ([] ++ [document]) =
            .ok result) accumulators tallies from h)
        rw [← tallies_nil_iff.1 hnil] at htallies
        exact ⟨tallies, htallies, rfl⟩
  | cons group groups ih =>
      obtain ⟨other, members⟩ := group
      rw [place]
      simp only [List.forall₂_cons_left_iff]
      cases hequals : key.equals other with
      | true =>
          rw [if_pos rfl, List.forall₂_cons_left_iff]
          constructor
          · rintro ⟨_, ⟨⟨found, tallies⟩, rest, ⟨hkey, htallies⟩, hrest, rfl⟩, h⟩
            obtain rfl : found = other := hkey
            rw [addTo, if_pos hequals, bind_ok_iff] at h
            obtain ⟨result, hresult, ⟨⟩⟩ := h
            exact ⟨_, rest, ⟨rfl, tallies_concat_iff.1 ⟨tallies, htallies, hresult⟩⟩, hrest, rfl⟩
          · rintro ⟨⟨found, result⟩, rest, ⟨hkey, hresult⟩, hrest, rfl⟩
            obtain rfl : found = other := hkey
            obtain ⟨tallies, htallies, hresult⟩ := tallies_concat_iff.2 hresult
            refine ⟨_, ⟨(found, tallies), rest, ⟨rfl, htallies⟩, hrest, rfl⟩, ?_⟩
            rw [addTo, if_pos hequals, hresult]
            rfl
      | false =>
          rw [if_neg Bool.false_ne_true, List.forall₂_cons_left_iff]
          simp only [← ih]
          constructor
          · rintro ⟨_, ⟨⟨found, tallies⟩, rest, ⟨hkey, htallies⟩, hrest, rfl⟩, h⟩
            obtain rfl : found = other := hkey
            rw [addTo, hequals, if_neg Bool.false_ne_true, map_ok_iff] at h
            obtain ⟨others, hothers, rfl⟩ := h
            exact ⟨_, others, ⟨rfl, htallies⟩, ⟨rest, hrest, hothers⟩, rfl⟩
          · rintro ⟨⟨found, tallies⟩, others, ⟨hkey, htallies⟩, ⟨rest, hrest, hothers⟩, rfl⟩
            obtain rfl : found = other := hkey
            refine ⟨_, ⟨(found, tallies), rest, ⟨rfl, htallies⟩, hrest, rfl⟩, ?_⟩
            rw [addTo, hequals, if_neg Bool.false_ne_true, hothers]
            rfl

/-- What is kept after all documents: for each group, the tallies of its members. -/
theorem foldlM_step_ok_iff {grouping : Grouping} {documents : List Json} :
    documents.foldlM grouping.step [] = .ok kept ↔
      ∃ keys, documents.mapM grouping.keyOf = .ok keys ∧
        List.Forall₂ (Tallied (grouping.accumulators.map Prod.snd))
          (partition (keys.zip documents)) kept := by
  induction documents using List.reverseRecOn generalizing kept with
  | nil =>
      constructor
      · rintro ⟨⟩
        exact ⟨[], rfl, by simp [partition]⟩
      · rintro ⟨keys, ⟨⟩, h⟩
        obtain rfl : kept = [] := by simpa [partition] using h
        rfl
  | append_singleton documents document ih =>
      rw [List.foldlM_append, bind_ok_iff, List.mapM_append]
      simp only [List.foldlM_cons, List.foldlM_nil, bind_pure, ih, step_eq_addTo, bind_ok_iff,
        List.mapM_cons, List.mapM_nil]
      have zip_concat {keys : List Value.Key} (hkeys : documents.mapM grouping.keyOf = .ok keys)
          (key : Value.Key) : (keys ++ [key]).zip (documents ++ [document]) =
            keys.zip documents ++ [(key, document)] :=
        List.zip_append (mapM_ok_iff.1 hkeys).length_eq.symm
      constructor
      · rintro ⟨before, ⟨keys, hkeys, hbefore⟩, key, hkey, hkept⟩
        refine ⟨keys ++ [key], ⟨keys, hkeys, [key], ⟨key, hkey, [], rfl, rfl⟩, rfl⟩, ?_⟩
        rw [zip_concat hkeys, partition_concat, ← addTo_ok_iff]
        exact ⟨before, hbefore, hkept⟩
      · rintro ⟨_, ⟨keys, hkeys, _, ⟨key, hkey, _, ⟨⟩, ⟨⟩⟩, ⟨⟩⟩, hkept⟩
        rw [zip_concat hkeys, partition_concat, ← addTo_ok_iff] at hkept
        obtain ⟨before, hbefore, hkept⟩ := hkept
        exact ⟨before, ⟨keys, hkeys, hbefore⟩, key, hkey, hkept⟩

end Groups

section Results

/-- The member for the result of a field over the members of a group. -/
def member? (members : List Json) (field : String × Accumulator) : Option (String × Json) := do
  let values ← (members.mapM field.2.input).toOption
  let result ← field.2.accumulated? values
  let document ← (Document.ofValue result).toOption
  some (field.1, document)

def summary? (grouping : Grouping) (group : Value.Key × List Json) : Option Json := do
  let key ← (Document.ofValue group.1.value).toOption
  let members ← grouping.accumulators.mapM (member? group.2)
  some (.object (Fields.ofList ((groupIdField, key) :: members)))

theorem member?_eq_some_iff {members : List Json} {field : String × Accumulator}
    {member : String × Json} : member? members field = some member ↔ member.1 = field.1 ∧
      ∃ result, tally field.2 members = .ok result ∧
        (result.result field.1 >>= Document.ofValue) = .ok member.2 := by
  simp only [member?, Accumulator.accumulated?, ← Tally.toOption_result field.1,
    Option.bind_eq_bind, Option.bind_eq_some_iff, toOption_eq_some_iff, tally_ok_iff, bind_ok_iff]
  constructor
  · rintro ⟨values, hvalues, v, ⟨result, hresult, hv⟩, document, hdocument, ⟨⟩⟩
    exact ⟨rfl, result, ⟨values, hvalues, hresult⟩, v, hv, hdocument⟩
  · rintro ⟨hname, result, ⟨values, hvalues, hresult⟩, v, hv, hdocument⟩
    exact ⟨values, hvalues, v, ⟨result, hresult, hv⟩, member.2, hdocument,
      congrArg some (Prod.ext hname.symm rfl)⟩

theorem resultFields_ok_iff {R : Accumulator → Tally → Prop} {fields : Fields Accumulator}
    {members : Fields Json} :
    (∃ tallies, List.Forall₂ R (fields.map Prod.snd) tallies ∧
      resultFields fields.names tallies = .ok members) ↔
      List.Forall₂ (fun field member => member.1 = field.1 ∧ ∃ result, R field.2 result ∧
        (result.result field.1 >>= Document.ofValue) = .ok member.2) fields members := by
  induction fields generalizing members with
  | nil => simp [resultFields, Fields.names, eq_comm]
  | cons field fields ih =>
      rw [List.map_cons, List.forall₂_cons_left_iff]
      simp only [← ih]
      constructor
      · rintro ⟨_, hR, h⟩
        cases hR with
        | @cons _ result _ tallies hfirst hrest =>
            simp only [Fields.names, List.map_cons, resultFields, bind_ok_iff] at h
            obtain ⟨v, hv, document, hdocument, others, hothers, ⟨⟩⟩ := h
            exact ⟨_, others, ⟨rfl, result, hfirst, bind_ok_iff.2 ⟨v, hv, hdocument⟩⟩,
              ⟨tallies, hrest, hothers⟩, rfl⟩
      · rintro ⟨⟨name, document⟩, others, ⟨hname, result, hfirst, hresult⟩,
          ⟨tallies, hrest, hothers⟩, rfl⟩
        obtain rfl : name = field.1 := hname
        obtain ⟨v, hv, hdocument⟩ := bind_ok_iff.1 hresult
        refine ⟨result :: tallies, .cons hfirst hrest, ?_⟩
        simp only [Fields.names, List.map_cons, resultFields, bind_ok_iff]
        exact ⟨v, hv, document, hdocument, others, hothers, rfl⟩

theorem present_ok_iff {grouping : Grouping} {group : Value.Key × List Json} {output : Json} :
    (∃ kept, Tallied (grouping.accumulators.map Prod.snd) group kept ∧
      grouping.present kept = .ok output) ↔ grouping.summary? group = some output := by
  have hmembers (members : Fields Json) :
      grouping.accumulators.mapM (member? group.2) = some members ↔
        ∃ tallies, List.Forall₂ (fun accumulator result => tally accumulator group.2 = .ok result)
          (grouping.accumulators.map Prod.snd) tallies ∧
            resultFields grouping.accumulators.names tallies = .ok members := by
    rw [mapM_eq_some_iff, resultFields_ok_iff]
    simp only [member?_eq_some_iff]
  simp only [summary?, Option.bind_eq_bind, Option.bind_eq_some_iff, toOption_eq_some_iff,
    hmembers, present, bind_ok_iff]
  constructor
  · rintro ⟨⟨_, tallies⟩, ⟨rfl, htallies⟩, key, hkey, members, hmembers, ⟨⟩⟩
    exact ⟨key, hkey, members, ⟨tallies, htallies, hmembers⟩, rfl⟩
  · rintro ⟨key, hkey, members, ⟨tallies, htallies, hmembers⟩, ⟨⟩⟩
    exact ⟨(group.1, tallies), ⟨rfl, htallies⟩, key, hkey, members, hmembers, rfl⟩

theorem run_ok_iff {grouping : Grouping} {documents outputs : List Json} :
    grouping.run documents = .ok outputs ↔ ∃ keys, documents.mapM grouping.keyOf = .ok keys ∧
      (partition (keys.zip documents)).mapM grouping.summary? = some outputs := by
  simp only [run, bind_ok_iff, foldlM_step_ok_iff, mapM_ok_iff, mapM_eq_some_iff, ← present_ok_iff,
    ← exists_forall₂_iff]
  constructor
  · rintro ⟨kept, ⟨keys, hkeys, hkept⟩, houtputs⟩
    exact ⟨keys, hkeys, kept, hkept, houtputs⟩
  · rintro ⟨keys, hkeys, kept, hkept, houtputs⟩
    exact ⟨kept, ⟨keys, hkeys, hkept⟩, houtputs⟩

theorem toOption_run (grouping : Grouping) (documents : List Json) :
    (grouping.run documents).toOption = (documents.mapM grouping.keyOf).toOption.bind
      fun keys => (partition (keys.zip documents)).mapM grouping.summary? := by
  ext outputs
  rw [toOption_eq_some_iff, run_ok_iff, Option.bind_eq_some_iff]
  simp only [toOption_eq_some_iff]

/-- Without a key all documents are one group, if there are any. -/
theorem toOption_run_ungrouped (accumulators : Fields Accumulator) (document : Json)
    (documents : List Json) :
    (run { key := none, accumulators } (document :: documents)).toOption =
      (accumulators.mapM (member? (document :: documents))).map fun members =>
        [.object (Fields.ofList ((groupIdField, .null) :: members))] := by
  let key : Value.Key := { value := .null, digest := .null }
  have hkeys : ((document :: documents).mapM (keyOf { key := none, accumulators })).toOption =
      some ((document :: documents).map fun _ => key) := by
    rw [toOption_mapM]
    exact List.mapM_pure
  have hzip : ((document :: documents).map fun _ => key).zip (document :: documents) =
      (document :: documents).map fun document => (key, document) := by
    rw [List.zip_map_left]
    simp [List.zip_eq_zipWith, List.zipWith_self]
  rw [toOption_run, hkeys, Option.bind_some, hzip, partition_of_key rfl, List.mapM_cons,
    List.mapM_nil]
  show ((accumulators.mapM (member? (document :: documents))).bind _ >>= _) = _
  cases accumulators.mapM (member? (document :: documents)) <;> rfl

end Results

section Summaries

variable (grouping : Grouping)

/-- The document for a group that is aggregated by itself: its key, and for each field the
aggregate of what the accumulator takes of the members. -/
def summary (group : Value.Key × List Json) : EvalM Json := do
  let key ← EvalM.lift (Document.ofValue group.1.value)
  let members ← grouping.accumulators.mapM fun field => do
    let values ← EvalM.lift (group.2.mapM field.2.input)
    let result ← (Sequence.ofValues values).aggregate field.2.op field.2.hasOperand
    return (field.1, ← EvalM.lift (Document.ofValue result))
  return .object (Fields.ofList ((groupIdField, key) :: members))

/-- The documents for the groups, each of which is aggregated by itself. -/
def summarize (documents : List Json) : EvalM (List Json) := do
  let keys ← EvalM.lift (documents.mapM grouping.keyOf)
  (partition (keys.zip documents)).mapM grouping.summary

theorem summary_gives (group : Value.Key × List Json) :
    (grouping.summary group).Gives (grouping.summary? group) := by
  refine (EvalM.gives_lift _).bind fun key => ?_
  refine (EvalM.Gives.mapM (fun field => ?_) _).bind fun members => EvalM.gives_pure _
  refine (EvalM.gives_lift _).bind fun values => ?_
  refine (aggregate_gives field.2 values).bind fun result => ?_
  exact (EvalM.gives_lift _).bind fun document => EvalM.gives_pure _

end Summaries

end Pipeline.Grouping

end RecordAlgebra
