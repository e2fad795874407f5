import FirstSeen.Proofs.History.Joining
import FirstSeen.Proofs.Supplying
import FirstSeen.Proofs.Tower.Dormancy

/-!
# Expressions that are bound to data

However an expression joins steps that remove duplicates, nests them in lists of steps and binds the whole to data, what it
gives is a pipeline that is dormant before the tower of these steps from left to right. Only the flag of the whole counts:
those of the pipelines in its lists are never looked at.
-/

set_option autoImplicit false

namespace FirstSeen

namespace Expression

mutual

/-- The parts of an expression from left to right. -/
def leaves : Expression → List Value
  | part v => [v]
  | join first second | chain first second => first.leaves ++ second.leaves
  | bind inner _ _ | feed _ inner => inner.leaves
  | group children _ _ => leavesOf children

/-- The parts of expressions in turn. -/
def leavesOf : List Expression → List Value
  | [] => []
  | tree :: rest => tree.leaves ++ leavesOf rest

end

/-- Whether the pipeline that an expression gives takes elements apart, if its parts are steps. -/
def flag : Expression → Bool
  | part _ => false
  | join first _ | chain first _ => first.flag
  | bind inner _ multi => multi.getD inner.flag
  | feed _ inner => inner.flag
  | group _ _ multi => multi

mutual

/-- Whether an expression binds what it gives to an input, and none of the parts of that to another one. -/
def BoundTo : Expression → Value → Prop
  | part _, input => input = .null
  | join first second, input | chain first second, input => first.BoundTo input ∧ second.BoundTo .null
  | bind inner data _, input | feed data inner, input => data = input ∧ inner.BoundTo .null
  | group children data _, input => data = input ∧ Unbound children

/-- Whether expressions bind what they give to no input. -/
def Unbound : List Expression → Prop
  | [] => True
  | tree :: rest => tree.BoundTo .null ∧ Unbound rest

end

end Expression

namespace Store

variable {D : Item → Prop} {multi flag flag' : Bool} {first store after : Store} {v w input : Value}
  {values leaves leaves' : List Value} {steps : ListId}

/-- A list that covers leaves does so while all sequences remain as they were. -/
theorem Covers.retained (covers : store.Covers D multi (store.list steps) leaves) (retains : store.Retains after)
    (listed : steps.index < store.lists.size) :
    steps.index < after.lists.size ∧ after.Covers D multi (after.list steps) leaves := by
  obtain ⟨more, lists⟩ := retains.grows.lists
  refine ⟨by rw [lists, Array.size_append]; omega, ?_⟩
  rw [retains.grows.list listed]
  exact covers.later retains.grows retains.size fun _ inside _ => retains.sequence inside

/-! ## Pieces of a chain -/

variable (D multi) in
/-- Whether a value is what is made of these leaves: one of them, or a pipeline on an input to which nothing has happened
yet, with a list of steps that covered the leaves before. -/
inductive Piece (first store : Store) : Value → Value → Bool → List Value → Prop
  | step {v : Value} (sound : first.SoundStep D multi v) : Piece first store v .null false [v]
  | pipeline {base : Store} {p : SequenceId} {steps : ListId} {input : Value} {flag : Bool} {leaves : List Value}
      (inside : p.index < store.sequences.size)
      (state : store.sequence p = { body := .pipeline steps input .null, multiValue := flag })
      (begun : first.Grows base) (retains : base.Retains store) (new : base.sequences.size ≤ p.index)
      (listed : steps.index < base.lists.size) (covers : base.Covers D multi (base.list steps) leaves) :
      Piece first store (.ofSequence p) input flag leaves

variable (D multi) in
/-- Whether a run makes a pipeline of these leaves, and adds nothing but lists and sequences. -/
def MakesPiece (first store : Store) (run : Run SequenceId) (input : Value) (flag : Bool) (leaves : List Value) : Prop :=
  ∃ p after, run.from? store = (.ok p, after) ∧ store.Enlarges after ∧
    Piece D multi first after (.ofSequence p) input flag leaves

namespace Piece

theorem later (piece : Piece D multi first store v input flag leaves) (retains : store.Retains after) :
    Piece D multi first after v input flag leaves := by
  cases piece with
  | step sound => exact .step sound
  | pipeline inside state begun held new listed covers =>
    exact .pipeline (Nat.lt_of_lt_of_le inside retains.size) (by rw [retains.sequence inside, state]) begun
      (held.trans retains) new listed covers

/-- A piece can stand in a chain: as a single step, or as a pipeline whose list covers the leaves. -/
theorem part (piece : Piece D multi first store v input flag leaves) (grows : first.Grows store) :
    ((Run.part? v).from? store = (.ok (some .step), store) ∧ input = .null ∧ flag = false ∧
        store.Covers D multi [v] leaves) ∨
      ∃ steps, (Run.part? v).from? store = (.ok (some (.pipeline steps input flag)), store) ∧
        steps.index < store.lists.size ∧ store.Covers D multi (store.list steps) leaves := by
  cases piece with
  | step sound =>
    have sound' := (grows.soundStep sound).1
    exact .inl ⟨sound'.part?, rfl, rfl, .step sound' .nil⟩
  | @pipeline base p steps _ _ _ inside state begun retains new listed covers =>
    refine .inr ⟨steps, ?_, covers.retained retains listed⟩
    rw [Value.ofSequence, Run.part?, Run.from?_bind_ok (Run.from?_sequence ..), state]
    rfl

/-- A piece in a list of steps covers its leaves, whatever it is bound to. -/
theorem covers (piece : Piece D multi first store v input flag leaves) (grows : first.Grows store) :
    store.Covers D multi [v] leaves := by
  cases piece with
  | step sound => exact .step (grows.soundStep sound).1 .nil
  | pipeline inside state begun retains new listed covers =>
    obtain ⟨listed', covers'⟩ := covers.retained retains listed
    rw [← List.append_nil leaves]
    exact .pipeline inside (by rw [state]) listed' covers' .nil

/-- A piece without an input adds steps at the end of a chain that cover its leaves. -/
theorem from?_stepsOf (piece : Piece D multi first store v .null flag leaves) (grows : first.Grows store) :
    ∃ values, (Run.stepsOf v).from? store = (.ok values, store) ∧ store.Covers D multi values leaves := by
  rcases piece.part grows with ⟨part, -, -, covers⟩ | ⟨steps, part, -, covers⟩
  · exact ⟨[v], by rw [Run.stepsOf, Run.from?_bind_ok part]; rfl, covers⟩
  · exact ⟨store.list steps, by rw [Run.stepsOf, Run.from?_bind_ok part]; rfl, covers⟩

end Piece

/-! ## Making pipelines of them -/

/-- A list that covers leaves is made a pipeline, which shares it. -/
theorem makesPiece_shared (grows : first.Grows store) (listed : steps.index < store.lists.size)
    (covers : store.Covers D multi (store.list steps) leaves) (input : Value) (flag : Bool) :
    MakesPiece D multi first store (Run.newPipeline (.object (.list steps)) input (.bool flag)) input flag leaves := by
  have enlarges := enlarges_joined store { body := .pipeline steps input .null, multiValue := flag }
  exact ⟨_, _, from?_newPipeline covers.isStep, enlarges, .pipeline (by simp [joined]) (sequence_joined_new ..) grows
    enlarges.retains (Nat.le_refl _) listed covers⟩

/-- New steps that cover leaves are made a pipeline. -/
theorem makesPiece_newPipeline (grows : first.Grows store) (covers : store.Covers D multi values leaves) (input : Value)
    (flag : Bool) :
    MakesPiece D multi first store (Run.newPipeline (.list values) input (.bool flag)) input flag leaves := by
  have enlarges := enlarges_listed store values
  have covers' := covers.later enlarges.grows enlarges.size fun _ inside _ => enlarges.sequence inside
  have made : MakesPiece D multi first (store.listed values)
      (Run.newPipeline (.object (.list ⟨store.lists.size⟩)) input (.bool flag)) input flag leaves :=
    makesPiece_shared (grows.trans enlarges.grows) (by simp [listed]) (by rwa [list_listed]) input flag
  obtain ⟨p, after, ends, further, piece⟩ := made
  exact ⟨p, after, (from?_newPipeline_list ..).trans ends, enlarges.trans further, piece⟩

/-- Joining two pieces makes one of the leaves of both, which is bound as the first one was. -/
theorem Piece.joins (piece : Piece D multi first store v input flag leaves)
    (piece' : Piece D multi first store w .null flag' leaves') (grows : first.Grows store) :
    MakesPiece D multi first store (Run.join v w) input flag (leaves ++ leaves') ∧
      MakesPiece D multi first store (Run.joinThen v w) input flag (leaves ++ leaves') := by
  obtain ⟨added, adds, covers'⟩ := piece'.from?_stepsOf grows
  obtain ⟨part, found, made⟩ : ∃ part, (Run.part? v).from? store = (.ok (some part), store) ∧
      MakesPiece D multi first store (Run.joinAfter v part w) input flag (leaves ++ leaves') := by
    rcases piece.part grows with ⟨found, rfl, rfl, covers⟩ | ⟨steps, found, -, covers⟩
    · refine ⟨_, found, ?_⟩
      rw [MakesPiece, Run.joinAfter, Run.from?_bind_ok adds]
      exact makesPiece_newPipeline grows (covers.append covers') .null false
    · refine ⟨_, found, ?_⟩
      rw [MakesPiece, Run.joinAfter, Run.from?_bind_ok adds, Run.from?_bind_ok (Run.from?_list ..)]
      exact makesPiece_newPipeline grows (covers.append covers') input flag
  rw [MakesPiece, MakesPiece, Run.join, Run.joinThen, Run.from?_bind_ok found, Run.from?_bind_ok found]
  exact ⟨made, made⟩

/-- A piece without an input is bound to data, and keeps its flag unless another one is given. -/
theorem Piece.bound (piece : Piece D multi first store v .null flag leaves) (grows : first.Grows store) (data : Value)
    (given : Option Bool) :
    ∃ part, (Run.part? v).from? store = (.ok (some part), store) ∧
      MakesPiece D multi first store (Run.bindInput v part data (given.map .bool)) data (given.getD flag) leaves := by
  rcases piece.part grows with ⟨found, -, rfl, covers⟩ | ⟨steps, found, listed, covers⟩
  · refine ⟨_, found, ?_⟩
    cases given <;> exact makesPiece_newPipeline grows covers data _
  · refine ⟨_, found, ?_⟩
    cases given <;> exact makesPiece_shared grows listed covers data _

end Store

namespace Expression

variable {D : Item → Prop} {multi : Bool} {first : Store}

/-- Whether a run makes a piece of these leaves, and adds nothing but lists and sequences. -/
def Gives (D : Item → Prop) (multi : Bool) (first store : Store) (run : Run Value) (input : Value) (flag : Bool)
    (leaves : List Value) : Prop :=
  ∃ v after, run.from? store = (.ok v, after) ∧ store.Enlarges after ∧ Store.Piece D multi first after v input flag leaves

theorem gives_of_makes {store : Store} {run : Run SequenceId} {input : Value} {flag : Bool} {leaves : List Value}
    (makes : Store.MakesPiece D multi first store run input flag leaves) :
    Gives D multi first store (do return .ofSequence (← run)) input flag leaves := by
  obtain ⟨p, after, ends, enlarges, piece⟩ := makes
  exact ⟨.ofSequence p, after, Run.from?_bind_ok ends, enlarges, piece⟩

/-- What is made first is made more of. -/
theorem Gives.bind {store : Store} {run : Run Value} {next : Value → Run Value} {input input' : Value} {flag flag' : Bool}
    {leaves leaves' : List Value} (gives : Gives D multi first store run input flag leaves)
    (rest : ∀ v after, store.Enlarges after → Store.Piece D multi first after v input flag leaves →
      Gives D multi first after (next v) input' flag' leaves') :
    Gives D multi first store (run >>= next) input' flag' leaves' := by
  obtain ⟨v, between, ends, enlarges, piece⟩ := gives
  obtain ⟨w, after, ends', further, piece'⟩ := rest v between enlarges piece
  exact ⟨w, after, by rw [Run.from?_bind_ok ends, ends'], enlarges.trans further, piece'⟩

/-- Two pieces that are made in turn are put together. -/
theorem Gives.both {store : Store} {left right : Run Value} {put : Value → Value → Run SequenceId} {input : Value}
    {flag flag' : Bool} {leaves leaves' : List Value} (grows : first.Grows store)
    (gives : Gives D multi first store left input flag leaves)
    (gives' : ∀ after : Store, first.Grows after → Gives D multi first after right .null flag' leaves')
    (makes : ∀ {v w : Value} {after : Store}, first.Grows after → Store.Piece D multi first after v input flag leaves →
      Store.Piece D multi first after w .null flag' leaves' →
      Store.MakesPiece D multi first after (put v w) input flag (leaves ++ leaves')) :
    Gives D multi first store (do
      let v ← left
      return .ofSequence (← put v (← right))) input flag (leaves ++ leaves') := by
  refine gives.bind fun v between enlarges piece => ?_
  have grown := grows.trans enlarges.grows
  refine (gives' between grown).bind fun w after further piece' => ?_
  exact gives_of_makes (makes (grown.trans further.grows) (piece.later further.retains) piece')

mutual

/-- What an expression gives is a piece of its leaves. -/
theorem make_gives : ∀ (tree : Expression) (input : Value),
    (∀ later : Store, (Run.part? input).from? later = (.ok none, later)) → tree.BoundTo input →
    (∀ leaf ∈ tree.leaves, first.SoundStep D multi leaf) → ∀ store : Store, first.Grows store →
    Gives D multi first store tree.make input tree.flag tree.leaves
  | part v, input, apart, bound, sound, store, grows => by
    rw [BoundTo] at bound
    rw [leaves] at sound ⊢
    rw [make, bound]
    exact ⟨v, store, rfl, .refl store, .step (sound v List.mem_cons_self)⟩
  | join left right, input, apart, bound, sound, store, grows => by
    rw [BoundTo] at bound
    rw [leaves] at sound ⊢
    rw [make]
    have gives := make_gives left input apart bound.1 (fun leaf member => sound leaf (List.mem_append_left _ member)) store
      grows
    exact gives.both grows
      (make_gives right .null (fun _ => rfl) bound.2 fun leaf member => sound leaf (List.mem_append_right _ member))
      fun grown piece piece' => (piece.joins piece' grown).1
  | chain left right, input, apart, bound, sound, store, grows => by
    rw [BoundTo] at bound
    rw [leaves] at sound ⊢
    rw [make]
    have gives := make_gives left input apart bound.1 (fun leaf member => sound leaf (List.mem_append_left _ member)) store
      grows
    exact gives.both grows
      (make_gives right .null (fun _ => rfl) bound.2 fun leaf member => sound leaf (List.mem_append_right _ member))
      fun grown piece piece' => (piece.joins piece' grown).2
  | bind inner data given, input, apart, bound, sound, store, grows => by
    rw [BoundTo] at bound
    obtain ⟨rfl, free⟩ := bound
    rw [leaves] at sound ⊢
    rw [make]
    refine (make_gives inner .null (fun _ => rfl) free sound store grows).bind fun v after enlarges piece => ?_
    obtain ⟨part, found, makes⟩ := piece.bound (grows.trans enlarges.grows) data given
    refine gives_of_makes ?_
    rw [Store.MakesPiece, Run.withInput, Run.from?_bind_ok found]
    exact makes
  | feed data inner, input, apart, bound, sound, store, grows => by
    rw [BoundTo] at bound
    obtain ⟨rfl, free⟩ := bound
    rw [leaves] at sound ⊢
    rw [make]
    refine (make_gives inner .null (fun _ => rfl) free sound store grows).bind fun v after enlarges piece => ?_
    obtain ⟨part, found, makes⟩ := piece.bound (grows.trans enlarges.grows) data none
    refine gives_of_makes ?_
    rw [Store.MakesPiece, Run.join, Run.from?_bind_ok (apart after)]
    simp only
    rw [Run.from?_bind_ok found]
    exact makes
  | group children data given, input, apart, bound, sound, store, grows => by
    rw [BoundTo] at bound
    obtain ⟨rfl, free⟩ := bound
    rw [leaves] at sound ⊢
    rw [make]
    obtain ⟨values, between, ends, enlarges, covers⟩ := makeAll_covers children free sound store grows
    obtain ⟨v, after, ends', further, piece⟩ :=
      gives_of_makes (Store.makesPiece_newPipeline (grows.trans enlarges.grows) covers data given)
    exact ⟨v, after, by rw [Run.from?_bind_ok ends, ends'], enlarges.trans further, piece⟩

/-- What expressions without inputs give covers their leaves. -/
theorem makeAll_covers : ∀ trees : List Expression, Unbound trees →
    (∀ leaf ∈ leavesOf trees, first.SoundStep D multi leaf) → ∀ store : Store, first.Grows store →
    ∃ values after, (makeAll trees).from? store = (.ok values, after) ∧ store.Enlarges after ∧
      after.Covers D multi values (leavesOf trees)
  | [], _, _, store, _ => ⟨[], store, by rw [makeAll]; rfl, .refl store, by rw [leavesOf]; exact .nil⟩
  | tree :: rest, free, sound, store, grows => by
    rw [Unbound] at free
    rw [leavesOf] at sound ⊢
    obtain ⟨v, between, ends, enlarges, piece⟩ := make_gives tree .null (fun _ => rfl) free.1
      (fun leaf member => sound leaf (List.mem_append_left _ member)) store grows
    have grown := grows.trans enlarges.grows
    obtain ⟨values, after, ends', further, covers⟩ := makeAll_covers rest free.2
      (fun leaf member => sound leaf (List.mem_append_right _ member)) between grown
    have here := (piece.later further.retains).covers (grown.trans further.grows)
    refine ⟨v :: values, after, ?_, enlarges.trans further, here.append covers⟩
    rw [makeAll, Run.from?_bind_ok ends, Run.from?_bind_ok ends']
    rfl

end

end Expression

namespace Store

/-- A piece that is bound to raw data is a pipeline that is dormant before the tower of its leaves, if it takes elements
apart as they do. -/
theorem Piece.dormant {multi : Bool} {first store : Store} {v d : Value} {leaves : List Value} (raw : first.Raw d)
    (sound : ∀ leaf ∈ leaves, first.SoundStep Item.Plain multi leaf) (spares : first.Spares [] store)
    (piece : Piece Item.Plain multi first store v d multi leaves) :
    ∃ p many, v = .ofSequence p ∧
      store.Dormant Item.Plain (first.aside d) multi many p (.passage {} (first.stagesOn multi leaves d)) := by
  cases piece with
  | step sound' => cases raw.bound
  | @pipeline base p steps _ _ _ inside state begun retains new listed covers =>
    obtain ⟨depth, high, builds⟩ := covers.builds_begun raw sound begun new
    have passes : store.Passes Item.Plain p {} := ⟨inside, by rw [state], by rw [state], by rw [state]; trivial⟩
    have retained : ∀ {later : Store}, (∀ ids, store.Spares ids later) → base.Retains later := fun spares' =>
      ⟨retains.grows.trans (spares' []).grows, Nat.le_trans retains.size (spares' []).size, fun {id} inside => by
        rw [(spares' [id]).same id List.mem_cons_self, retains.sequence inside]⟩
    have builds' := fun (later : Store) n (spares' : ∀ ids, store.Spares ids later) (deep : depth ≤ n) =>
      builds later steps n (spares.trans (spares' [])) (retained spares') ((retained spares').grows.list listed) deep
    exact ⟨p, depth + 2, rfl, dormant_of_builds passes (by rw [state]) (by rw [state]) raw.bound (fresh_stagesOn ..) high
      (fun later n spares' deep => (builds' later n spares' deep).1) fun later n spares' deep =>
        (builds' later n spares' deep).2⟩

end Store

/-- An expression that binds steps which remove duplicates to raw data, and takes elements apart as they do, gives a
pipeline that is dormant before the tower of the steps. -/
theorem Expression.make_dormant {store : Store} {d : Value} {tree : Expression} (raw : store.Raw d)
    (bound : tree.BoundTo d) (sound : ∀ leaf ∈ tree.leaves, store.SoundStep Item.Plain tree.flag leaf) :
    ∃ p made many, tree.make.from? store = (.ok (.ofSequence p), made) ∧
      made.Dormant Item.Plain (store.aside d) tree.flag many p (.passage {} (store.stagesOn tree.flag tree.leaves d)) := by
  obtain ⟨v, made, makes, enlarges, piece⟩ :=
    tree.make_gives d (fun _ => raw.part?) bound sound store (Store.Enlarges.refl store).grows
  obtain ⟨p, many, rfl, dormant⟩ := piece.dormant raw sound (enlarges.spares (by simp))
  exact ⟨p, made, many, makes, dormant⟩

end FirstSeen
