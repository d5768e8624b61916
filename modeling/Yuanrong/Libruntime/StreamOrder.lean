import Yuanrong.Libruntime.StreamGeneratorReceiver

/-!
# Results of a generator come out in order

While the stream is open, a consumer gets the output at its own index or waits for it. It is the end
of the stream that lets a call return without an output, so what matters is that every index up to
the end has one by then.
-/

namespace Yuanrong.Libruntime

open List Option Nat GeneratorStream

variable {l : List Nat}

theorem mem_of_length_eq (hnodup : l.Nodup) (hlt : ∀ k ∈ l, k < n)
    (hlength : l.length = n) (hk : k < n) : k ∈ l := by
  have hsub : l ⊆ range n := fun j hj => mem_range.mpr (hlt j hj)
  have hperm := (subperm_of_subset hnodup hsub).perm_of_length_le (by simp [hlength])
  exact hperm.mem_iff.mpr (mem_range.mpr hk)

theorem length_notMem (hall : ∀ k < l.length, k ∈ l) : l.length ∉ l := by
  intro hmem
  have hsub : range (l.length + 1) ⊆ l := by
    intro k hk
    rcases Nat.lt_succ_iff_lt_or_eq.mp (mem_range.mp hk) with hlt | rfl
    · exact hall k hlt
    · exact hmem
  have hle := (subperm_of_subset nodup_range hsub).length_le
  rw [length_range] at hle
  exact not_succ_le_self _ hle

namespace GeneratorStream

variable {n : Nat} {ending : StreamEnd} {s s' : GeneratorStream} {e : Event} {index k : Nat}
  {err : ErrorInfo} {res : GeneratorRes}

def resultOf (s : GeneratorStream) (index : Nat) : GeneratorRes :=
  { objectId := s.generateObjectId index }

structure Outputs (s s' : GeneratorStream) (index : Nat) (err : ErrorInfo) : Prop where
  generatorId : s'.generatorId = s.generatorId
  getIndex : s'.getIndex = s.getIndex
  returned : s'.returned = s.returned
  finished : s'.finished = s.finished
  lookup : ∀ k, s'.generatorResMap.lookup k =
    if k = index ∧ s.generatorResMap.lookup k = none then
      some { objectId := s.generateObjectId index, err }
    else s.generatorResMap.lookup k
  stored : ∀ k ∈ s'.stored, k = index ∨ k ∈ s.stored

structure Adds (s s' : GeneratorStream) (index : Nat) (err : ErrorInfo) : Prop
    extends Outputs s s' index err where
  delivered : s'.delivered = s.delivered
  endDelivered : s'.endDelivered = s.endDelivered
  marked : s'.marked = s.marked

def Stored (s : GeneratorStream) : Prop := ∀ k ∈ s.stored, s.generatorResMap.lookup k ≠ none

theorem lookup_addOutput (s : GeneratorStream) (index : Nat) (err : ErrorInfo) (k : Nat) :
    (s.addOutput index err).generatorResMap.lookup k =
      if k = index ∧ s.generatorResMap.lookup k = none then
        some { objectId := s.generateObjectId index, err }
      else s.generatorResMap.lookup k := by
  unfold addOutput
  split
  case isTrue hsome =>
    rw [if_neg]
    rintro ⟨rfl, hnone⟩
    rw [hnone] at hsome
    cases hsome
  case isFalse hnone =>
    by_cases heq : k = index
    · subst heq
      have hnone' : s.generatorResMap.lookup k = none := by simpa using hnone
      rw [if_pos ⟨rfl, hnone'⟩]
      exact AList.lookup_insert _
    · rw [if_neg fun h => heq h.1]
      exact AList.lookup_insert_ne heq

theorem adds_addOutput (s : GeneratorStream) (index : Nat) (err : ErrorInfo) :
    Adds s (s.addOutput index err) index err := by
  have hstored : (s.addOutput index err).stored = s.stored := by
    unfold addOutput
    split <;> rfl
  refine ⟨⟨?_, ?_, ?_, ?_, lookup_addOutput s index err, fun k hk => .inr (hstored ▸ hk)⟩, ?_, ?_, ?_⟩ <;>
  · unfold addOutput
    split <;> rfl

theorem adds_putOutput (hstored : s.Stored) (index : Nat) (err : ErrorInfo) :
    Adds s (s.putOutput index err) index err := by
  unfold putOutput
  split
  case isTrue hmem =>
    have hadds := adds_addOutput s index (s.putError index)
    refine { hadds with lookup := ?_ }
    intro k
    have hoccupied : ¬ (k = index ∧ s.generatorResMap.lookup k = none) := by
      rintro ⟨rfl, hnone⟩
      exact hstored k hmem hnone
    rw [lookup_addOutput, if_neg hoccupied, if_neg hoccupied]
  case isFalse =>
    have hadds := adds_addOutput { s with stored := index :: s.stored } index err
    refine { hadds with stored := ?_ }
    intro k hk
    rcases hadds.stored k hk with rfl | hmem
    · exact .inl rfl
    · exact mem_cons.mp hmem

section

variable (h : Outputs s s' index err)
include h

theorem Outputs.stored_outputs (hstored : s.Stored) : s'.Stored := by
  intro k hk
  rw [h.lookup]
  split
  · nofun
  rename_i hne
  rcases h.stored k hk with rfl | hold
  · exact fun hnone => hne ⟨rfl, hnone⟩
  · exact hstored k hold

theorem Outputs.keeps (hlookup : s.generatorResMap.lookup k = some res) :
    s'.generatorResMap.lookup k = some res := by
  rw [h.lookup, if_neg, hlookup]
  rintro ⟨-, hnone⟩
  rw [hlookup] at hnone
  cases hnone

theorem Outputs.lookup_new (hnone : s.generatorResMap.lookup index = none) :
    s'.generatorResMap.lookup index = some { objectId := s.generateObjectId index, err } := by
  rw [h.lookup, if_pos ⟨rfl, hnone⟩]

theorem Outputs.lookup_ne (hne : k ≠ index) : s'.generatorResMap.lookup k = s.generatorResMap.lookup k := by
  rw [h.lookup, if_neg fun hk => hne hk.1]

end

theorem Adds.with_counters (h : Adds s s' index err) (counter num : Option Nat) (finishing : Bool) :
    Adds s { s' with resultsCounter := counter, numResults := num, finishing } index err :=
  { h with }

theorem Adds.of_counter (h : Adds { s with resultsCounter := counter } s' index err) : Adds s s' index err :=
  { h with }

theorem Outputs.record (h : Outputs s s' index err) (delivered : List Nat) (endDelivered : Bool)
    (marked : Option (List Nat × ErrorInfo)) :
    Outputs s { s' with delivered, endDelivered, marked } index err :=
  { h with }

theorem addOutput_counters (s : GeneratorStream) (index : Nat) (err : ErrorInfo) :
    (s.addOutput index err).resultsCounter = s.resultsCounter ∧
      (s.addOutput index err).numResults = s.numResults ∧
      (s.addOutput index err).finishing = s.finishing := by
  unfold addOutput
  split <;> exact ⟨rfl, rfl, rfl⟩

theorem putOutput_counters (s : GeneratorStream) (index : Nat) (err : ErrorInfo) :
    (s.putOutput index err).resultsCounter = s.resultsCounter ∧
      (s.putOutput index err).numResults = s.numResults ∧
      (s.putOutput index err).finishing = s.finishing := by
  unfold putOutput
  split
  · exact addOutput_counters s index _
  · exact addOutput_counters { s with stored := index :: s.stored } index err

theorem adds_checkResults (h : Adds s s' index err) : Adds s s'.checkResults index err := by
  unfold checkResults
  split
  · exact h.with_counters s'.resultsCounter s'.numResults true
  · exact h

theorem adds_result (hstored : s.Stored) (index : Nat) (hasData : Bool) :
    Adds s (s.handleGeneratorResult index hasData {}) index {} := by
  have hput := adds_putOutput (s := { s with resultsCounter := some (s.resultsCounter.getD 0 + 1) })
    hstored index {}
  unfold handleGeneratorResult
  rw [if_pos ErrorInfo.ok_default]
  split
  · split
    · exact hput.of_counter
    · exact adds_checkResults hput.of_counter
  · exact adds_checkResults (adds_addOutput _ index {}).of_counter

theorem result_counters (hnew : index ∉ s.stored) (hasData : Bool) :
    (s.handleGeneratorResult index hasData {}).resultsCounter =
        some (s.resultsCounter.getD 0 + 1) ∧
      (s.handleGeneratorResult index hasData {}).numResults = s.numResults ∧
      (s.handleGeneratorResult index hasData {}).finishing =
        (s.finishing || decide (s.numResults = some (s.resultsCounter.getD 0 + 1))) := by
  have hcheck : ∀ t : GeneratorStream,
      t.resultsCounter = some (s.resultsCounter.getD 0 + 1) ∧ t.numResults = s.numResults ∧
        t.finishing = s.finishing →
      t.checkResults.resultsCounter = some (s.resultsCounter.getD 0 + 1) ∧
        t.checkResults.numResults = s.numResults ∧
        t.checkResults.finishing =
          (s.finishing || decide (s.numResults = some (s.resultsCounter.getD 0 + 1))) := by
    rintro t ⟨hcounter, hnum, hfinishing⟩
    unfold checkResults
    split
    case isTrue h =>
      rw [hnum, hcounter] at h
      exact ⟨hcounter, hnum, by simp [h.2]⟩
    rename_i h
    refine ⟨hcounter, hnum, ?_⟩
    rw [hnum, hcounter] at h
    have hne : s.numResults ≠ some (s.resultsCounter.getD 0 + 1) := by
      intro heq
      exact h ⟨by rw [heq]; rfl, heq⟩
    simp [hfinishing, hne]
  unfold handleGeneratorResult
  rw [if_pos ErrorInfo.ok_default]
  split
  · exact hcheck _ (putOutput_counters _ _ _)
  · exact hcheck _ (addOutput_counters _ _ _)

theorem adds_error (hstored : s.Stored) (index : Nat) (hasData : Bool) (hfailed : err.OK = false) :
    Adds s (s.handleGeneratorResult index hasData err) index err ∧
      (s.handleGeneratorResult index hasData err).finishing = true := by
  have hput := adds_putOutput (s := { s with resultsCounter := some (s.resultsCounter.getD 0 + 1) })
    hstored index err
  unfold handleGeneratorResult
  rw [hfailed, if_neg Bool.false_ne_true]
  exact ⟨hput.of_counter.with_counters _ _ true, rfl⟩

theorem adds_finished (hstored : s.Stored) (n : Nat) :
    Adds s (s.handleGeneratorFinished n) n StreamEnd.finish.err := by
  have hput := (adds_putOutput (s := { s with resultsCounter := some (s.resultsCounter.getD 0) })
    hstored n StreamEnd.finish.err).of_counter
  unfold handleGeneratorFinished
  dsimp only
  split
  · exact hput.with_counters _ _ true
  · exact hput.with_counters _ (some n) _

theorem finished_counters (s : GeneratorStream) (n : Nat) :
    (s.resultsCounter.getD 0 = n → (s.handleGeneratorFinished n).finishing = true) ∧
      (s.resultsCounter.getD 0 ≠ n → (s.handleGeneratorFinished n).finishing = s.finishing ∧
        (s.handleGeneratorFinished n).numResults = some n ∧
        (s.handleGeneratorFinished n).resultsCounter = some (s.resultsCounter.getD 0)) := by
  unfold handleGeneratorFinished
  refine ⟨?_, ?_⟩
  · intro heq
    rw [if_pos heq]
  intro hne
  rw [if_neg hne]
  obtain ⟨hcounter, -, hfinishing⟩ :=
    putOutput_counters { s with resultsCounter := some (s.resultsCounter.getD 0) } n _
  exact ⟨hfinishing, rfl, hcounter⟩

/-- The first index missing at `MarkEndOfStream`, or the one after the last result. -/
def bound (n : Nat) (s : GeneratorStream) : Nat := (s.marked.map fun mark => mark.1.length).getD n

def endErr (ending : StreamEnd) (s : GeneratorStream) : ErrorInfo :=
  (s.marked.map fun mark => mark.2).getD ending.err

structure Base (n : Nat) (s : GeneratorStream) : Prop where
  nodup : s.delivered.Nodup
  lt : ∀ k ∈ s.delivered, k < n
  stored : s.Stored

/-- The stream is open: the outputs are those of the results that have arrived, and that of
`finish(n)`. -/
structure Live (n : Nat) (ending : StreamEnd) (s : GeneratorStream) : Prop where
  finished : s.finished = false
  finishing : s.finishing = false
  marked : s.marked = none
  counter : s.resultsCounter.getD 0 = s.delivered.length
  num : s.numResults = if s.endDelivered then some n else none
  ended : s.endDelivered = true → ending = .finish ∧ s.delivered.length ≠ n ∧
    ∃ res, s.generatorResMap.lookup n = some res ∧ res.err = ending.err
  open_ : s.endDelivered = false → s.generatorResMap.lookup n = none
  outputs : ∀ k < n, s.generatorResMap.lookup k =
    if k ∈ s.delivered then some (s.resultOf k) else none
  beyond : ∀ k, n < k → s.generatorResMap.lookup k = none

/-- The stream has ended: every index up to the end has its output. -/
structure Closed (n : Nat) (ending : StreamEnd) (s : GeneratorStream) : Prop where
  closed : s.finished = true ∨ s.finishing = true
  results : ∀ k < s.bound n, s.generatorResMap.lookup k = some (s.resultOf k)
  last : ∃ res, s.generatorResMap.lookup (s.bound n) = some res ∧ res.err = s.endErr ending
  gapless : ∀ D err, s.marked = some (D, err) → (∀ k < D.length, k ∈ D) ∧ D.length ≤ n
  counter : s.marked = none → s.finished = true → s.resultsCounter = none
  complete : s.marked = none → (∀ k < n, k ∈ s.delivered) ∧ s.endDelivered = true ∧
    ∀ k, n < k → s.generatorResMap.lookup k = none

structure Answered (n : Nat) (s : GeneratorStream) : Prop where
  early : s.finished = false ∨ s.getIndex ≤ s.bound n → s.returned.length = s.getIndex
  le : s.getIndex ≤ s.returned.length
  outputs : ∀ k < s.getIndex, k ≤ s.bound n → s.returned[k]? = s.generatorResMap.lookup k
  late : s.marked = none → ∀ k res, s.returned[k]? = some res → n < k →
    res.err.code = errGeneratorFinished

structure Inv (n : Nat) (ending : StreamEnd) (s : GeneratorStream) : Prop where
  base : Base n s
  phase : Live n ending s ∨ Closed n ending s
  answered : Answered n s

theorem Outputs.resultOf_eq (h : Outputs s s' index err) (k : Nat) : s'.resultOf k = s.resultOf k := by
  unfold resultOf generateObjectId
  rw [h.generatorId]

theorem Answered.defined (h : Answered n s) (k : Nat) (hk : k < s.getIndex) (hle : k ≤ s.bound n) :
    s.generatorResMap.lookup k ≠ none := by
  rw [← h.outputs k hk hle]
  simpa using hk.trans_le h.le

theorem Answered.outputs_of (h : Answered n s) (hout : Outputs s s' index err)
    (hmarked : s'.marked = s.marked ∨ (s.finished = false ∧ s'.marked ≠ none ∧ s'.bound n ≤ s.bound n)) :
    Answered n s' := by
  have hbound : s'.bound n ≤ s.bound n := by
    rcases hmarked with heq | ⟨-, -, hle⟩
    · rw [bound, heq, bound]
    · exact hle
  have hlength : s.returned.length = s.getIndex ∨ s'.bound n = s.bound n ∧ s.finished = true := by
    rcases hmarked with heq | ⟨hopen, -, -⟩
    · cases hfin : s.finished with
      | false => exact .inl (h.early (.inl hfin))
      | true => exact .inr ⟨by rw [bound, heq, bound], rfl⟩
    · exact .inl (h.early (.inl hopen))
  refine ⟨?_, ?_, ?_, ?_⟩
  · rw [hout.finished, hout.getIndex, hout.returned]
    intro hearly
    rcases hlength with hlen | ⟨heq, -⟩
    · exact hlen
    · exact h.early (heq ▸ hearly)
  · rw [hout.getIndex, hout.returned]
    exact h.le
  · rw [hout.getIndex, hout.returned]
    intro k hk hle
    obtain ⟨res, hres⟩ := ne_none_iff_exists'.mp (h.defined k hk (hle.trans hbound))
    rw [h.outputs k hk (hle.trans hbound), hres, hout.keeps hres]
  · intro hnone
    rw [hout.returned]
    rcases hmarked with heq | ⟨-, hsome, -⟩
    · exact h.late (heq ▸ hnone)
    · exact absurd hnone hsome

theorem Base.length_le (h : Base n s) : s.delivered.length ≤ n := by
  have hsub : s.delivered ⊆ range n := fun k hk => mem_range.mpr (h.lt k hk)
  simpa using (subperm_of_subset h.nodup hsub).length_le

section Open

variable (h : Live n ending s)
include h

theorem Live.bound_eq : s.bound n = n := by rw [bound, h.marked]; rfl

theorem Live.close (hout : Outputs s s' index err) (hfinishing : s'.finishing = true)
    (hmarked : s'.marked = none) (hall : ∀ k < n, k ∈ s'.delivered) (hend : s'.endDelivered = true)
    (hresults : ∀ k < n, s'.generatorResMap.lookup k = some (s.resultOf k))
    (hlast : ∃ res, s'.generatorResMap.lookup n = some res ∧ res.err = ending.err)
    (hindex : index ≤ n) : Closed n ending s' := by
  have hbound : s'.bound n = n := by rw [bound, hmarked]; rfl
  have herr : s'.endErr ending = ending.err := by rw [endErr, hmarked]; rfl
  refine ⟨.inr hfinishing, ?_, ?_, ?_, ?_, fun _ => ⟨hall, hend, ?_⟩⟩
  · intro k hk
    rw [hout.resultOf_eq]
    exact hresults k (hbound ▸ hk)
  · rw [hbound, herr]
    exact hlast
  · rw [hmarked]
    nofun
  · rw [hout.finished, h.finished]
    nofun
  · intro k hk
    rw [hout.lookup_ne (hindex.trans_lt hk).ne', h.beyond k hk]

theorem Live.result (hbase : Base n s) (hlt : index < n) (hnew : index ∉ s.delivered) (hasData : Bool) :
    Live n ending { s.handleGeneratorResult index hasData {} with delivered := index :: s.delivered } ∨
      Closed n ending
        { s.handleGeneratorResult index hasData {} with delivered := index :: s.delivered } := by
  have hnone : s.generatorResMap.lookup index = none := by rw [h.outputs index hlt, if_neg hnew]
  have hunstored : index ∉ s.stored := fun hmem => hbase.stored index hmem hnone
  have hadds := adds_result hbase.stored index hasData
  obtain ⟨hcounter, hnum, hfinishing⟩ := result_counters hunstored hasData
  have hout := hadds.toOutputs.record (index :: s.delivered)
    (s.handleGeneratorResult index hasData {}).endDelivered
    (s.handleGeneratorResult index hasData {}).marked
  have houtputs : ∀ k < n, (s.handleGeneratorResult index hasData {}).generatorResMap.lookup k =
      if k ∈ index :: s.delivered then some (s.resultOf k) else none := by
    intro k hk
    by_cases heq : k = index
    · subst heq
      rw [hadds.lookup_new hnone, if_pos mem_cons_self]
      rfl
    · rw [hadds.lookup_ne heq, h.outputs k hk]
      simp [heq]
  rw [h.finishing, h.counter, Bool.false_or] at hfinishing
  by_cases hlast : s.numResults = some (s.delivered.length + 1)
  · right
    have hend : s.endDelivered = true := by
      by_contra hnot
      rw [h.num, if_neg hnot] at hlast
      cases hlast
    have hlength : s.delivered.length + 1 = n := by
      rw [h.num, if_pos hend] at hlast
      exact (some.inj hlast).symm
    have hall : ∀ k < n, k ∈ index :: s.delivered := by
      intro k hk
      exact mem_of_length_eq (nodup_cons.mpr ⟨hnew, hbase.nodup⟩)
        (forall_mem_cons.mpr ⟨hlt, hbase.lt⟩) hlength hk
    obtain ⟨-, -, res, hres, herr⟩ := h.ended hend
    refine h.close hout (hfinishing.trans (decide_eq_true hlast)) (hadds.marked.trans h.marked)
      hall (hadds.endDelivered.trans hend) ?_ ⟨res, hadds.keeps hres, herr⟩ hlt.le
    intro k hk
    exact (houtputs k hk).trans (if_pos (hall k hk))
  · left
    refine ⟨hadds.finished.trans h.finished, hfinishing.trans (decide_eq_false hlast),
      hadds.marked.trans h.marked, ?_, ?_, ?_, ?_, ?_, ?_⟩
    · rw [hcounter, getD_some, h.counter, length_cons]
    · rw [hnum, h.num]
      simp only [hadds.endDelivered]
    · intro hend
      rw [show (_ : Bool) = s.endDelivered from hadds.endDelivered] at hend
      obtain ⟨hfinish, -, res, hres, herr⟩ := h.ended hend
      refine ⟨hfinish, ?_, res, hadds.keeps hres, herr⟩
      intro hlength
      rw [h.num, if_pos hend] at hlast
      exact hlast (congrArg some hlength.symm)
    · intro hend
      rw [show (_ : Bool) = s.endDelivered from hadds.endDelivered] at hend
      rw [hadds.lookup_ne hlt.ne', h.open_ hend]
    · intro k hk
      rw [hout.resultOf_eq]
      exact houtputs k hk
    · intro k hk
      rw [hadds.lookup_ne (hlt.trans hk).ne', h.beyond k hk]

theorem Live.outputs_of_all (hall : ∀ k < n, k ∈ s.delivered) (k : Nat) (hk : k < n) :
    s.generatorResMap.lookup k = some (s.resultOf k) := by
  rw [h.outputs k hk, if_pos (hall k hk)]

theorem Live.finish (hbase : Base n s) (hending : ending = .finish) (hfirst : s.endDelivered = false) :
    Live n ending { s.handleGeneratorFinished n with endDelivered := true } ∨
      Closed n ending { s.handleGeneratorFinished n with endDelivered := true } := by
  have hadds := adds_finished hbase.stored n
  have hout := hadds.toOutputs.record (s.handleGeneratorFinished n).delivered true
    (s.handleGeneratorFinished n).marked
  have hnew := hadds.lookup_new (h.open_ hfirst)
  have herr : StreamEnd.finish.err = ending.err := by rw [hending]
  by_cases hcount : s.resultsCounter.getD 0 = n
  · right
    have hlength : s.delivered.length = n := h.counter.symm.trans hcount
    have hall : ∀ k < n, k ∈ s.delivered := fun k hk => mem_of_length_eq hbase.nodup hbase.lt hlength hk
    refine h.close hout ((finished_counters s n).1 hcount) (hadds.marked.trans h.marked) ?_ rfl ?_
      ⟨_, hnew, herr⟩ le_rfl
    · intro k hk
      rw [hadds.delivered]
      exact hall k hk
    · intro k hk
      exact hadds.keeps (h.outputs_of_all hall k hk)
  · left
    obtain ⟨hfinishing, hnum, hcounter⟩ := (finished_counters s n).2 hcount
    refine ⟨hadds.finished.trans h.finished, hfinishing.trans h.finishing,
      hadds.marked.trans h.marked, ?_, hnum, fun _ => ⟨hending, ?_, _, hnew, herr⟩, nofun, ?_, ?_⟩
    · rw [hcounter, getD_some, h.counter]
      exact congrArg length hadds.delivered.symm
    · rw [hadds.delivered, ← h.counter]
      exact hcount
    · intro k hk
      rw [hout.resultOf_eq]
      rw [hadds.lookup_ne hk.ne, hadds.delivered, h.outputs k hk]
    · intro k hk
      rw [hadds.lookup_ne hk.ne', h.beyond k hk]

theorem Live.error (hbase : Base n s) (hending : ending = .error err failed)
    (hall : ∀ k < n, k ∈ s.delivered) :
    Closed n ending { s.handleGeneratorResult n false err with endDelivered := true } := by
  obtain ⟨hadds, hfinishing⟩ := adds_error hbase.stored n false failed
  have hout := hadds.toOutputs.record (s.handleGeneratorResult n false err).delivered true
    (s.handleGeneratorResult n false err).marked
  have hopen : s.endDelivered = false := by
    by_contra hend
    obtain ⟨hfinish, -⟩ := h.ended (by simpa using hend)
    rw [hfinish] at hending
    cases hending
  refine h.close hout hfinishing (hadds.marked.trans h.marked) ?_ rfl ?_
    ⟨_, hadds.lookup_new (h.open_ hopen), by rw [hending]; rfl⟩ le_rfl
  · intro k hk
    rw [hadds.delivered]
    exact hall k hk
  · intro k hk
    exact hadds.keeps (h.outputs_of_all hall k hk)

theorem Live.mark (hbase : Base n s) (hall : ∀ k < s.delivered.length, k ∈ s.delivered)
    (err : ErrorInfo) : Closed n ending (s.markEndOfStream err) := by
  have hadds := adds_putOutput hbase.stored (s.resultsCounter.getD 0) err
  have hle := hbase.length_le
  have hnone : s.generatorResMap.lookup s.delivered.length = none := by
    rcases hle.lt_or_eq with hlt | heq
    · rw [h.outputs _ hlt, if_neg (length_notMem hall)]
    cases hend : s.endDelivered with
    | true => exact absurd heq (h.ended hend).2.1
    | false => rw [heq, h.open_ hend]
  rw [h.counter] at hadds
  have hmarked : (s.markEndOfStream err).marked = some (s.delivered, err) := by
    simp [markEndOfStream, h.finished]
  have hmap : (s.markEndOfStream err).generatorResMap =
      (s.putOutput s.delivered.length err).generatorResMap := by
    rw [markEndOfStream, h.counter]
    rfl
  have hid : ∀ k, (s.markEndOfStream err).resultOf k = s.resultOf k := by
    intro k
    rw [← hadds.resultOf_eq, markEndOfStream, h.counter]
    rfl
  have hbound : (s.markEndOfStream err).bound n = s.delivered.length := by rw [bound, hmarked]; rfl
  refine ⟨.inr rfl, ?_, ?_, ?_, ?_, ?_⟩
  · rw [hbound, hmap]
    intro k hk
    rw [hadds.lookup_ne hk.ne, h.outputs k (hk.trans_le hle), if_pos (hall k hk), hid]
  · rw [hbound, hmap]
    refine ⟨_, hadds.lookup_new hnone, ?_⟩
    rw [endErr, hmarked]
    rfl
  · rw [hmarked]
    rintro D err' heq
    cases heq
    exact ⟨hall, hle⟩
  all_goals
    rw [hmarked]
    nofun

end Open

section Ended

variable (h : Closed n ending s)
include h

theorem Closed.outputs_of (hout : Outputs s s' index err) (hmarked : s'.marked = s.marked)
    (hcounter : s.marked = none → s'.resultsCounter = s.resultsCounter)
    (hcomplete : s.marked = none → s'.delivered = s.delivered ∧ s'.endDelivered = s.endDelivered ∧
      index = 0) (hfinished : s.finished = true) : Closed n ending s' := by
  have hbound : s'.bound n = s.bound n := by rw [bound, hmarked, bound]
  refine ⟨.inl (hout.finished.trans hfinished), ?_, ?_, hmarked ▸ h.gapless, ?_, ?_⟩
  · rw [hbound]
    intro k hk
    rw [hout.resultOf_eq]
    exact hout.keeps (h.results k hk)
  · obtain ⟨res, hres, herr⟩ := h.last
    rw [hbound, endErr, hmarked]
    exact ⟨res, hout.keeps hres, herr⟩
  · rw [hmarked]
    intro hnone hfin
    rw [hcounter hnone, h.counter hnone hfinished]
  · rw [hmarked]
    intro hnone
    obtain ⟨hall, hend, hbeyond⟩ := h.complete hnone
    obtain ⟨hdelivered, hended, rfl⟩ := hcomplete hnone
    refine ⟨hdelivered ▸ hall, hended.trans hend, ?_⟩
    intro k hk
    rw [hout.lookup_ne (zero_lt_of_lt hk).ne', hbeyond k hk]

theorem Closed.generatorFinished : Closed n ending s.generatorFinished :=
  { h with closed := .inl rfl, counter := fun _ _ => rfl }

theorem Closed.defined (k : Nat) (hk : k ≤ s.bound n) : s.generatorResMap.lookup k ≠ none := by
  rcases hk.lt_or_eq with hlt | rfl
  · rw [h.results k hlt]
    nofun
  obtain ⟨res, hres, -⟩ := h.last
  rw [hres]
  nofun

end Ended

theorem Inv.beyond (h : Inv n ending s) (hmarked : s.marked = none) (k : Nat) (hk : n < k) :
    s.generatorResMap.lookup k = none := by
  rcases h.phase with hlive | hclosed
  · exact hlive.beyond k hk
  · exact (hclosed.complete hmarked).2.2 k hk

theorem Inv.getOutput (h : Inv n ending s) (hstep : s.getOutput = some s') : Inv n ending s' := by
  unfold GeneratorStream.getOutput at hstep
  split at hstep
  case h_1 res hres =>
    cases hstep
    refine ⟨{ h.base with }, ?_, ?_⟩
    · rcases h.phase with hl | hc
      · exact .inl { hl with }
      · exact .inr { hc with }
    · have ha := h.answered
      refine ⟨?_, ?_, ?_, ?_⟩
      · intro hearly
        have hearly' : s.finished = false ∨ s.getIndex ≤ s.bound n :=
          hearly.imp id fun hle => (le_succ _).trans hle
        simp [ha.early hearly']
      · simpa using ha.le
      · intro k hk hle
        rcases Nat.lt_succ_iff_lt_or_eq.mp hk with hlt | rfl
        · rw [getElem?_append_left (hlt.trans_le ha.le), ha.outputs k hlt hle]
        · rw [← ha.early (.inr hle), getElem?_concat_length, ha.early (.inr hle), hres]
      · intro hmarked k res' hget hk
        by_cases hold : k < s.returned.length
        · rw [getElem?_append_left hold] at hget
          exact ha.late hmarked k res' hget hk
        -- an output was taken, so the index was not beyond the end, and this was its first call
        exfalso
        have hindex : s.getIndex ≤ n := by
          by_contra hgt
          rw [h.beyond hmarked _ (Nat.lt_of_not_le hgt)] at hres
          cases hres
        have hbound : s.bound n = n := by rw [bound, hmarked]; rfl
        have hlength := ha.early (.inr (hindex.trans_eq hbound.symm))
        have hlt := (List.getElem?_eq_some_iff.mp hget).1
        rw [length_append, length_singleton] at hlt
        omega
  case h_2 hnone =>
    obtain ⟨hfinished, rfl⟩ := Option.ite_some_none_eq_some.mp hstep
    have hclosed : Closed n ending s := by
      rcases h.phase with hl | hc
      · exact absurd (hl.finished.symm.trans hfinished) Bool.false_ne_true
      · exact hc
    have hpast : s.bound n < s.getIndex := by
      by_contra hle
      exact hclosed.defined _ (Nat.le_of_not_lt hle) hnone
    have ha := h.answered
    refine ⟨{ h.base with }, .inr { hclosed with }, ?_, ?_, ?_, ?_⟩
    · rintro (hopen | hle)
      · exact absurd (hfinished.symm.trans hopen) Bool.noConfusion
      · exact absurd hle (not_le.mpr hpast)
    · exact ha.le.trans (by simp)
    · intro k hk hle
      rw [getElem?_append_left (hk.trans_le ha.le), ha.outputs k hk hle]
    · intro hmarked k res' hget hk
      by_cases hold : k < s.returned.length
      · rw [getElem?_append_left hold] at hget
        exact ha.late hmarked k res' hget hk
      obtain ⟨hlt, heq⟩ := List.getElem?_eq_some_iff.mp hget
      rw [getElem_append_right (Nat.le_of_not_lt hold)] at heq
      simp only [getElem_singleton] at heq
      rw [← heq]

/-- An open stream ends with an error only if no result is missing before it. -/
def endsInOrder (n : Nat) (ending : StreamEnd) (s : GeneratorStream) (e : Event) : Bool :=
  match e, ending with
  | .ending, .error _ _ => s.finished || (List.range n).all fun k => s.delivered.contains k
  | .markEndOfStream _, _ =>
    s.finished || (List.range s.delivered.length).all fun k => s.delivered.contains k
  | _, _ => true

theorem all_of_range (hall : ((range m).all fun k => l.contains k) = true) (k : Nat) (hk : k < m) :
    k ∈ l := by
  simpa using all_eq_true.mp hall k (mem_range.mpr hk)

theorem Inv.result (h : Inv n ending s) (hcan : index < n ∧ index ∉ s.delivered ∧ s.finishing = false) :
    Inv n ending { s.handleGeneratorResult index hasData {} with delivered := index :: s.delivered } := by
  obtain ⟨hlt, hnew, hfinishing⟩ := hcan
  have hadds := adds_result h.base.stored index hasData
  have hout := hadds.toOutputs.record (index :: s.delivered)
    (s.handleGeneratorResult index hasData {}).endDelivered
    (s.handleGeneratorResult index hasData {}).marked
  refine ⟨⟨nodup_cons.mpr ⟨hnew, h.base.nodup⟩, forall_mem_cons.mpr ⟨hlt, h.base.lt⟩,
    hout.stored_outputs h.base.stored⟩, ?_, h.answered.outputs_of hout (.inl hadds.marked)⟩
  rcases h.phase with hlive | hclosed
  · exact hlive.result h.base hlt hnew hasData
  have hmarked : s.marked ≠ none := fun hnone => hnew ((hclosed.complete hnone).1 index hlt)
  refine .inr (hclosed.outputs_of hout hadds.marked (fun hnone => absurd hnone hmarked)
    (fun hnone => absurd hnone hmarked) ?_)
  exact hclosed.closed.resolve_right (by simp [hfinishing])

theorem adds_end (hstored : s.Stored) (n : Nat) (ending : StreamEnd) :
    Adds s (s.handleEnd n ending) n ending.err := by
  cases ending with
  | finish => exact adds_finished hstored n
  | error _ failed => exact (adds_error hstored n false failed).1

theorem Live.deliverEnd (h : Live n ending s) (hbase : Base n s) (hok : s.endsInOrder n ending .ending = true)
    (hfirst : s.endDelivered = false) : Live n ending { s.handleEnd n ending with endDelivered := true } ∨
      Closed n ending { s.handleEnd n ending with endDelivered := true } := by
  cases ending with
  | finish => exact h.finish hbase rfl hfirst
  | error =>
    simp only [endsInOrder, h.finished, Bool.false_or] at hok
    exact .inr (h.error hbase rfl (all_of_range hok))

theorem Inv.deliverEnd (h : Inv n ending s) (hok : s.endsInOrder n ending .ending = true)
    (hfirst : s.endDelivered = false) (hfinishing : s.finishing = false) :
    Inv n ending { s.handleEnd n ending with endDelivered := true } := by
  have hadds := adds_end h.base.stored n ending
  have hout := hadds.toOutputs.record (s.handleEnd n ending).delivered true (s.handleEnd n ending).marked
  refine ⟨⟨?_, ?_, hout.stored_outputs h.base.stored⟩, ?_, h.answered.outputs_of hout (.inl hadds.marked)⟩
  · exact hadds.delivered ▸ h.base.nodup
  · exact hadds.delivered ▸ h.base.lt
  rcases h.phase with hlive | hclosed
  · exact hlive.deliverEnd h.base hok hfirst
  have hmarked : s.marked ≠ none := by
    intro hnone
    exact Bool.false_ne_true (hfirst.symm.trans (hclosed.complete hnone).2.1)
  refine .inr (hclosed.outputs_of hout hadds.marked (fun hnone => absurd hnone hmarked)
    (fun hnone => absurd hnone hmarked) ?_)
  exact hclosed.closed.resolve_right (by simp [hfinishing])

theorem Inv.mark (h : Inv n ending s) (hok : s.endsInOrder n ending (.markEndOfStream err) = true)
    (hfinishing : s.finishing = false) : Inv n ending (s.markEndOfStream err) := by
  have hadds := adds_putOutput h.base.stored (s.resultsCounter.getD 0) err
  have hout : Outputs s (s.markEndOfStream err) (s.resultsCounter.getD 0) err :=
    (hadds.with_counters _ _ true).toOutputs.record _ _ _
  have hdelivered : (s.markEndOfStream err).delivered = s.delivered := hadds.delivered
  have hbase : Base n (s.markEndOfStream err) :=
    ⟨hdelivered ▸ h.base.nodup, hdelivered ▸ h.base.lt, hout.stored_outputs h.base.stored⟩
  rcases h.phase with hlive | hclosed
  · have hmarked : (s.markEndOfStream err).marked = some (s.delivered, err) := by
      simp [markEndOfStream, hlive.finished]
    have hall : ∀ k < s.delivered.length, k ∈ s.delivered := by
      cases ending <;>
      · simp only [endsInOrder, hlive.finished, Bool.false_or] at hok
        exact all_of_range hok
    refine ⟨hbase, .inr (hlive.mark h.base hall err),
      h.answered.outputs_of hout (.inr ⟨hlive.finished, by simp [hmarked], ?_⟩)⟩
    rw [hlive.bound_eq, bound, hmarked]
    exact h.base.length_le
  · have hfinished : s.finished = true := hclosed.closed.resolve_right (by simp [hfinishing])
    have hmarked : (s.markEndOfStream err).marked = s.marked := by simp [markEndOfStream, hfinished]
    refine ⟨hbase, .inr (hclosed.outputs_of hout hmarked ?_ ?_ hfinished),
      h.answered.outputs_of hout (.inl hmarked)⟩
    · intro _
      exact (putOutput_counters s (s.resultsCounter.getD 0) err).1
    intro hnone
    refine ⟨hdelivered, hadds.endDelivered, ?_⟩
    rw [hclosed.counter hnone hfinished]
    rfl

theorem Inv.step (h : Inv n ending s) (hok : s.endsInOrder n ending e = true)
    (hstep : s.next n ending e = some s') : Inv n ending s' := by
  cases e with
  | result =>
    obtain ⟨hcan, rfl⟩ := ite_some_none_eq_some.mp hstep
    exact h.result hcan
  | ending =>
    obtain ⟨hcan, rfl⟩ := ite_some_none_eq_some.mp hstep
    exact h.deliverEnd hok hcan.1 hcan.2
  | markEndOfStream =>
    simp only [next] at hstep
    split at hstep
    · cases hstep
    rename_i hcan
    cases hstep
    exact h.mark hok (by simpa using hcan)
  | generatorFinished =>
    obtain ⟨hfinishing, rfl⟩ := ite_some_none_eq_some.mp hstep
    have hclosed : Closed n ending s := by
      rcases h.phase with hl | hc
      · exact absurd (hl.finishing.symm.trans hfinishing) Bool.false_ne_true
      · exact hc
    have ha := h.answered
    refine ⟨{ h.base with }, .inr hclosed.generatorFinished, ?_, ha.le, ha.outputs, ha.late⟩
    rintro (hopen | hle)
    · cases hopen
    · exact ha.early (.inr hle)
  | getOutput => exact h.getOutput hstep
  | release index =>
    cases hstep
    have hbase : Base n { s with stored := s.stored.filter (· ≠ index) } :=
      ⟨h.base.nodup, h.base.lt, fun k hk => h.base.stored k (mem_of_mem_filter hk)⟩
    refine ⟨hbase, ?_, { h.answered with }⟩
    rcases h.phase with hl | hc
    · exact .inl { hl with }
    · exact .inr { hc with }

/-- The results in order up to the end, which has its own error, and then that the generator has
finished. -/
theorem Inv.returned_eq (h : Inv n ending s) (hget : s.returned[k]? = some res) :
    (k < s.bound n → res = s.resultOf k) ∧ (k = s.bound n → res.err = s.endErr ending) ∧
      (s.marked = none → n < k → res.err.code = errGeneratorFinished) := by
  have hlt := (List.getElem?_eq_some_iff.mp hget).1
  have houtput : k ≤ s.bound n → s.generatorResMap.lookup k = some res := by
    intro hle
    have hindex : k < s.getIndex := by
      by_contra hge
      have heq := h.answered.early (.inr ((Nat.le_of_not_lt hge).trans hle))
      exact hge (heq ▸ hlt)
    rw [← h.answered.outputs k hindex hle, hget]
  refine ⟨?_, ?_, fun hmarked hk => h.answered.late hmarked k res hget hk⟩
  · intro hk
    have hres := houtput hk.le
    rcases h.phase with hl | hc
    · rw [hl.outputs k (hl.bound_eq ▸ hk)] at hres
      split at hres
      · exact (some.inj hres).symm
      · cases hres
    · rw [hc.results k hk] at hres
      exact (some.inj hres).symm
  · rintro rfl
    have hres := houtput le_rfl
    rcases h.phase with hl | hc
    · rw [hl.bound_eq] at hres
      rw [endErr, hl.marked]
      cases hend : s.endDelivered with
      | false =>
        rw [hl.open_ hend] at hres
        cases hres
      | true =>
        obtain ⟨-, -, res', hres', herr⟩ := hl.ended hend
        rw [hres'] at hres
        cases hres
        exact herr
    · obtain ⟨res', hres', herr⟩ := hc.last
      rw [hres'] at hres
      cases hres
      exact herr

end GeneratorStream

/-- For every order of arrival the k-th call returns the object of index k, then the error of the
end, then that the generator has finished, when an error ends the stream only with no result
missing. -/
theorem outputs_in_order {n : Nat} {ending : StreamEnd} {s : GeneratorStream}
    (hrun : (generatorStream n ending).Reach (fun s e => s.endsInOrder n ending e = true) s) :
    (s.marked = none → ∀ k res, s.returned[k]? = some res →
      (k < n → res = s.resultOf k) ∧ (k = n → res.err = ending.err) ∧
      (n < k → res.err.code = errGeneratorFinished)) ∧
    (∀ received err, s.marked = some (received, err) → ∀ m, IsLeast { k | k ∉ received } m →
      ∀ k res, s.returned[k]? = some res → (k < m → res = s.resultOf k) ∧ (k = m → res.err = err)) := by
  have h : s.Inv n ending := by
    refine hrun.invariant ?_ ?_
    · rintro s ⟨generatorId, rfl⟩
      refine ⟨⟨nodup_nil, nofun, nofun⟩, .inl ?_, ⟨fun _ => rfl, le_rfl, nofun, nofun⟩⟩
      exact ⟨rfl, rfl, rfl, rfl, rfl, nofun, fun _ => rfl, fun _ _ => rfl, fun _ _ => rfl⟩
    · intro s e s' l _ hok h hstep
      exact h.step hok (next_of_step hstep)
  refine ⟨?_, ?_⟩
  · intro hmarked k res hget
    obtain ⟨hbefore, hlast, hafter⟩ := h.returned_eq hget
    rw [bound, hmarked] at hbefore hlast
    rw [endErr, hmarked] at hlast
    exact ⟨hbefore, hlast, hafter hmarked⟩
  · intro received err hmarked m hleast k res hget
    have hclosed : s.Closed n ending := by
      rcases h.phase with hl | hc
      · rw [hl.marked] at hmarked
        cases hmarked
      · exact hc
    have hall := (hclosed.gapless received err hmarked).1
    have hm : m = received.length := by
      apply le_antisymm (hleast.2 (length_notMem hall))
      by_contra hlt
      exact hleast.1 (hall m (Nat.lt_of_not_le hlt))
    obtain ⟨hbefore, hlast, -⟩ := h.returned_eq hget
    rw [bound, hmarked] at hbefore hlast
    rw [endErr, hmarked] at hlast
    exact ⟨fun hk => hbefore (hk.trans_eq hm), fun hk => hlast (hk.trans hm)⟩

theorem outputs_in_order_reversed :
    ∃ s, (generatorStream 2 .finish).Reach (fun s e => s.endsInOrder 2 .finish e = true) s ∧
      s.returned = [⟨"gen_g_0", {}⟩, ⟨"gen_g_1", {}⟩, ⟨"gen_g_2", ⟨9005, ""⟩⟩] ∧
      ∀ k res, s.returned[k]? = some res → (k < 2 → res = s.resultOf k) ∧
        (k = 2 → res.err = StreamEnd.finish.err) ∧ (2 < k → res.err.code = errGeneratorFinished) := by
  obtain ⟨s, hrun, hs⟩ := (generatorStream 2 .finish).reach_of_run (fun s e => s.endsInOrder 2 .finish e)
    (show (generatorStream 2 .finish).init { generatorId := "g" } from ⟨"g", rfl⟩)
    [.ending, .result 1 true, .result 0 true, .getOutput, .generatorFinished, .getOutput, .getOutput]
    (fun s => s.returned = [⟨"gen_g_0", {}⟩, ⟨"gen_g_1", {}⟩, ⟨"gen_g_2", ⟨9005, ""⟩⟩] ∧ s.marked = none)
    (by decide)
  exact ⟨s, hrun, hs.1, (outputs_in_order hrun).1 hs.2⟩

/-- The error result overtakes the only other one: the first call is told that the generator has
finished. -/
theorem error_overtakes_result :
    ∃ s, (generatorStream 1 (.error ⟨3003, "e"⟩ rfl)).Reachable s ∧ s.marked = none ∧
      s.delivered = [0] ∧ s.endDelivered = true ∧
      (s.returned[0]?).any (fun res => res.err.code = errGeneratorFinished) = true :=
  (generatorStream 1 (.error ⟨3003, "e"⟩ rfl)).reachable_of_run
    (show (generatorStream 1 (.error ⟨3003, "e"⟩ rfl)).init { generatorId := "g" } from ⟨"g", rfl⟩)
    [.ending, .generatorFinished, .getOutput, .result 0 true] _ (by decide)

end Yuanrong.Libruntime
