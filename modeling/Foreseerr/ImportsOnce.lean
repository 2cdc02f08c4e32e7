import Foreseerr.ManualImports

/-!
# A candidate is imported once

The token of a candidate is looked up when an import begins, and taken out when
the Arr has accepted the command; the calls of the Arr in between take as long as
they take. Two imports that overlap there send the file twice, and so does one
whose list names the token twice (`ManualImports.file_sent_twice`). An import
whose list has no token twice, none of which anyone takes out between its
look-up and the command, sends every file for the first time
(`ManualImports.imported_once`).
-/

namespace Foreseerr

namespace ManualImports

/-! ## What is to hold of every run -/

/-- The files of the commands that were accepted. -/
def sent (log : List ImportEvent) : List File :=
  log.flatMap fun
    | .commanded _ _ _ files true => files
    | _ => []

/-- **Every candidate is imported once**, if it is. -/
structure ImportedOnce (s : System) : Prop where
  /-- A token contributes one file at most. -/
  once : ∀ token, (sent s.log).countP (fun file => file.stored.token = token) ≤ 1
  /-- A token that a rematch replaced contributes none afterwards. -/
  replaced : ∀ before after task owner b files,
    s.log = before ++ .commanded task owner b files true :: after →
    ∀ file ∈ files, ∀ other, .removed other file.stored.token true ∉ before
  /-- A request that failed leaves what is live, and nobody else took out, redeemable. -/
  kept : ∀ task fail, s.tasks task = .failed fail → ∀ token owner value expires,
    .issued token owner value expires ∈ s.log → s.now < expires →
    (∀ other ≠ task, ∀ byRematch, .removed other token byRematch ∉ s.log) →
    s.get token = some ⟨owner, value, expires⟩

/-! ## When it does -/

/-- The tokens that an import whose command was accepted has still to take out. -/
def Pc.toRemove : Pc → List String
  | .removing _ rest _ => rest
  | _ => []

/-- **The condition on a step.** When the Arr accepts a command, its list names no
token twice; nobody has taken one of its tokens out since the import looked it up,
nor has another import that was accepted still to do so; and the answer to no earlier
command with one of them was lost. -/
def Ok (s : System) : Act → Prop
  | .command _ .refused => True
  | .command task _ => ∀ owner b files, s.tasks task = .commanding owner b files →
    b.tokens.Nodup ∧ ∀ token ∈ b.tokens,
      (∀ before after, s.log = before ++ .found task token :: after →
        ∀ other byRematch, .removed other token byRematch ∉ after) ∧
      (∀ other, token ∉ (s.tasks other).toRemove) ∧
      ∀ other b', s.tasks other = .unanswered b' → token ∉ b'.tokens
  | _ => True

/-! ## The invariant -/

variable {toLowercase : String → String} {log : List ImportEvent} {owner : Owner} {task : Nat}
  {b : ImportBody} {s s' : System} {token : String}

/-- The tokens a party has looked up, and goes by. -/
def Pc.held : Pc → List String
  | .rematchCurrent _ stored _ | .rematchEpisodes _ stored _ | .rematchPost _ stored _
  | .rematchRemoving _ stored _ => [stored.token]
  | .redeeming _ _ found => found.map Stored.token
  | .current _ b _ _ | .intervening _ b _ | .qualities _ b _ | .languages _ b _ _
  | .targeting _ b _ | .claiming _ b _ | .commanding _ b _ => b.tokens
  | .removing _ rest _ => rest
  | _ => []

/-- A party may have taken tokens out. -/
def Pc.past : Pc → Prop
  | .offering _ _ | .removing _ _ _ | .ended => True
  | _ => False

/-- A party has not got past the command, and has not failed. -/
def Pc.underWay : Pc → Prop
  | .offering _ _ | .removing _ _ _ | .ended | .failed _ | .unanswered _ => False
  | _ => True

/-- The token was taken out. -/
def Removed (log : List ImportEvent) (token : String) : Prop :=
  ∃ task byRematch, .removed task token byRematch ∈ log

/-- The token's file was sent, and the token has been taken out, will be, or stays
because the answer was lost. -/
def Spent (s : System) (token : String) : Prop :=
  Removed s.log token ∨ (∃ task, token ∈ (s.tasks task).toRemove) ∨
    ∃ task b, s.tasks task = .unanswered b ∧ token ∈ b.tokens

/-- A look-up finds a token that was not taken out, and a command has none that was
replaced. -/
def LooksBack (before : List ImportEvent) : ImportEvent → Prop
  | .found _ token => ¬ Removed before token
  | .commanded _ _ _ files true =>
    ∀ file ∈ files, ∀ other, .removed other file.stored.token true ∉ before
  | _ => True

/-- **The invariant**: whose file was sent is spent, and what was taken out is not in
the store, nor will it be issued again. -/
structure OnceInv (toLowercase : String → String) (s : System) : Prop where
  base : Inv toLowercase s
  stored : ∀ token entry, s.tokens token = some entry → token ∈ s.issued
  issued : ∀ token owner value expires, .issued token owner value expires ∈ s.log →
    token ∈ s.issued
  found : ∀ task token, .found task token ∈ s.log → token ∈ s.issued
  held : ∀ task, ∀ token ∈ (s.tasks task).held, .found task token ∈ s.log
  gone : ∀ token, Removed s.log token → s.tokens token = none ∧ token ∈ s.issued
  log : Log.EachAfter LooksBack s.log
  past : ∀ task token byRematch, .removed task token byRematch ∈ s.log → (s.tasks task).past
  spent : ∀ file ∈ sent s.log, Spent s file.stored.token
  live : ∀ token owner value expires, .issued token owner value expires ∈ s.log →
    s.now < expires → ¬ Removed s.log token → s.tokens token = some ⟨owner, value, expires⟩
  once : ∀ token, (sent s.log).countP (fun file => file.stored.token = token) ≤ 1

/-! ## What a party holds -/

/-- Events of a party that neither issues nor takes out a token, nor sends anything. -/
def Plain (s : System) (task : Nat) : ImportEvent → Prop
  | .found other token => other = task ∧ ∃ entry, s.tokens token = some entry
  | .commanded _ _ _ _ accepted => accepted = false
  | .issued _ _ _ _ | .removed _ _ _ => False
  | _ => True

theorem not_mem_held_offer {values : List TokenValue} : token ∉ (offer owner values).held := by
  unfold offer
  split <;> exact List.not_mem_nil

theorem not_mem_held_listNext (owner : Owner) (rest : List Json) (pairs : List (Json × Json)) :
    token ∉ (listNext owner rest pairs).held := by
  unfold listNext
  split
  · exact not_mem_held_offer
  · exact List.not_mem_nil

theorem held_claimNext (owner : Owner) (b : ImportBody) (files : List File) :
    (claimNext owner b files).held = b.tokens := by
  unfold claimNext
  split <;> rfl

theorem held_checkNext {files : List File} {pc : Pc} (h : checkNext owner b files = .ok pc) :
    pc.held = b.tokens := by
  obtain ⟨-, -, h⟩ := except_bind_eq_ok h
  split at h
  · cases h
    exact held_claimNext _ _ _
  · cases h
    rfl

theorem held_overrideNext {files : List File} {pc : Pc}
    (h : overrideNext owner b files = .ok pc) : pc.held = b.tokens := by
  unfold overrideNext at h
  split at h
  · cases h
    rfl
  · exact held_checkNext h

theorem held_currentNext {files : List File} {rest : List Json} {pc : Pc}
    (h : currentNext owner b files rest = .ok pc) : pc.held = b.tokens := by
  unfold currentNext at h
  split at h
  · cases h
    rfl
  · split at h
    · cases h
      rfl
    · exact held_overrideNext h

/-- **After an answer** a party holds no more tokens than before. -/
theorem answered_held {pc : Pc} {next : Pc × List ImportEvent} {answer : Json}
    (hnext : answered toLowercase task pc answer = some (.ok next)) :
    (∀ token ∈ next.1.held, token ∈ pc.held) ∧ ∀ event ∈ next.2, Plain s task event := by
  have hquiet : ∀ event ∈ ([] : List ImportEvent), Plain s task event :=
    fun _ hevent => absurd hevent List.not_mem_nil
  cases pc with
  | sourcing owner intervention =>
    obtain ⟨found, -, hnext⟩ := except_bind_eq_ok (Option.some.inj hnext)
    split at hnext
    · cases hnext
      exact ⟨fun _ htoken => absurd htoken List.not_mem_nil, hquiet⟩
    · cases hnext
      exact ⟨fun _ htoken => absurd htoken not_mem_held_offer, hquiet⟩
  | scanCurrent owner source =>
    obtain ⟨-, -, hnext⟩ := except_bind_eq_ok (Option.some.inj hnext)
    cases hnext
    exact ⟨fun _ htoken => absurd htoken List.not_mem_nil, hquiet⟩
  | scanCandidates owner source =>
    replace hnext := Option.some.inj hnext
    split at hnext
    · cases hnext
      exact ⟨fun _ htoken => absurd htoken not_mem_held_offer, by simp [Plain]⟩
    · cases hnext
  | listQueue owner =>
    obtain ⟨found, -, hnext⟩ := except_bind_eq_ok (Option.some.inj hnext)
    cases hnext
    exact ⟨fun _ htoken => absurd htoken (not_mem_held_listNext owner found []), hquiet⟩
  | listCandidates owner rest pairs =>
    cases rest with
    | nil => cases hnext
    | cons source rest =>
      replace hnext := Option.some.inj hnext
      split at hnext
      · cases hnext
        exact ⟨fun _ htoken => absurd htoken (not_mem_held_listNext owner rest _), by simp [Plain]⟩
      · cases hnext
  | rematchCurrent owner stored ids =>
    obtain ⟨-, -, hnext⟩ := except_bind_eq_ok (Option.some.inj hnext)
    cases hnext
    exact ⟨fun _ => id, hquiet⟩
  | rematchEpisodes owner stored ids =>
    replace hnext := Option.some.inj hnext
    split at hnext
    · cases hnext
    · cases hnext
      exact ⟨fun _ => id, hquiet⟩
  | rematchPost owner stored request =>
    replace hnext := Option.some.inj hnext
    split at hnext
    · cases hnext
      exact ⟨fun _ => id, by simp [Plain]⟩
    · cases hnext
  | current owner b files rest =>
    cases rest with
    | nil => cases hnext
    | cons source rest =>
      obtain ⟨-, -, hnext⟩ := except_bind_eq_ok (Option.some.inj hnext)
      obtain ⟨pc, hpc, hnext⟩ := except_bind_eq_ok hnext
      cases hnext
      exact ⟨fun token => (congrArg (token ∈ ·) (held_currentNext hpc)).mp, hquiet⟩
  | qualities owner b files =>
    obtain ⟨qualities, -, hnext⟩ := except_bind_eq_ok (Option.some.inj hnext)
    cases hnext
    exact ⟨fun _ => id, hquiet⟩
  | languages owner b files qualities =>
    obtain ⟨languages, -, hnext⟩ := except_bind_eq_ok (Option.some.inj hnext)
    obtain ⟨files', -, hnext⟩ := except_bind_eq_ok hnext
    obtain ⟨pc, hpc, hnext⟩ := except_bind_eq_ok hnext
    cases hnext
    exact ⟨fun token => (congrArg (token ∈ ·) (held_checkNext hpc)).mp, hquiet⟩
  | targeting owner b files =>
    obtain ⟨files', -, hnext⟩ := except_bind_eq_ok (Option.some.inj hnext)
    cases hnext
    exact ⟨fun token => (congrArg (token ∈ ·) (held_claimNext owner b _)).mp, by simp [Plain]⟩
  | _ => cases hnext

theorem underWay_of_answered {pc : Pc} {answer : Json} {next : Except Fail (Pc × List ImportEvent)}
    (h : answered toLowercase task pc answer = some next) : pc.underWay := by
  cases pc <;> trivial

theorem underWay_of_redeemed {pc : Pc} {next : Except Fail (Pc × List String)}
    (h : redeemed toLowercase s pc = some next) : pc.underWay := by
  cases pc <;> trivial

/-- **After a look-up** a party holds the token it found. -/
theorem redeemed_held {pc : Pc} {next : Pc × List String}
    (hpc : PcSound toLowercase s.log task pc)
    (hnext : redeemed toLowercase s pc = some (.ok next)) :
    (∀ token ∈ next.1.held, token ∈ pc.held ∨ token ∈ next.2) ∧
      ∀ token ∈ next.2, ∃ entry, s.tokens token = some entry := by
  have hstored : ∀ {token owner value}, s.redeem token owner = some value →
      ∀ other ∈ [token], ∃ entry, s.tokens other = some entry := by
    intro token owner value hredeem other hother
    obtain ⟨entry, hentry, -⟩ := System.redeem_eq_some hredeem
    exact ⟨entry, List.mem_singleton.1 hother ▸ hentry⟩
  cases pc with
  | scanRedeeming owner token =>
    replace hnext := Option.some.inj hnext
    split at hnext
    · cases hnext
      exact ⟨nofun, nofun⟩
    · cases hnext
  | rematchRedeeming owner token ids =>
    replace hnext := Option.some.inj hnext
    split at hnext
    · rename_i candidate source hredeem
      obtain ⟨⟨⟩, -, hnext⟩ := except_bind_eq_ok hnext
      cases hnext
      exact ⟨fun other hother => .inr hother, hstored hredeem⟩
    · cases hnext
  | redeeming owner b found =>
    obtain ⟨token, htoken, hnext⟩ := Option.map_eq_some_iff.1 hnext
    split at hnext
    · rename_i candidate source hredeem
      obtain ⟨-, htokens, -⟩ := hpc
      have hlength : found.length < b.tokens.length := (List.getElem?_eq_some_iff.1 htoken).1
      dsimp only at hnext
      split at hnext
      · cases hnext
        refine ⟨fun other hother => ?_, hstored hredeem⟩
        have hother : other ∈ (found ++ [Stored.mk token candidate source]).map Stored.token :=
          hother
        rw [List.map_append] at hother
        exact List.mem_append.1 hother
      · rename_i hlast
        obtain ⟨⟨⟩, -, hnext⟩ := except_bind_eq_ok hnext
        cases hnext
        refine ⟨fun other hother => ?_, hstored hredeem⟩
        have hother : other ∈ b.tokens := hother
        rw [List.length_append, List.length_singleton] at hlast
        rw [← List.take_of_length_le (Nat.le_of_not_lt hlast), List.take_add_one, htoken,
          ← htokens] at hother
        exact List.mem_append.1 hother
    · cases hnext
  | _ => cases hnext

/-! ## A longer record -/

section Record

variable {events : List ImportEvent}

theorem sent_append (log events : List ImportEvent) :
    sent (log ++ events) = sent log ++ sent events :=
  List.flatMap_append

theorem sent_of_plain (h : ∀ event ∈ events, Plain s task event) : sent events = [] := by
  refine List.flatMap_eq_nil_iff.2 fun event hevent => ?_
  have hplain := h event hevent
  cases event with
  | commanded other owner b files accepted =>
    cases hplain
    rfl
  | _ => rfl

theorem Removed.append (h : Removed log token) (events : List ImportEvent) :
    Removed (log ++ events) token :=
  h.imp fun _ h => h.imp fun _ hmem => List.mem_append_left _ hmem

theorem Removed.of_plain (h : Removed (log ++ events) token)
    (hplain : ∀ event ∈ events, Plain s task event) : Removed log token := by
  obtain ⟨other, byRematch, hmem⟩ := h
  rcases List.mem_append.1 hmem with hold | hnew
  · exact ⟨other, byRematch, hold⟩
  · exact (hplain _ hnew).elim

theorem looksBack_append (h : Log.EachAfter LooksBack log)
    (hgone : ∀ token, Removed log token → s.tokens token = none)
    (hplain : ∀ event ∈ events, Plain s task event) :
    Log.EachAfter LooksBack (log ++ events) := by
  induction events generalizing log with
  | nil => rwa [List.append_nil]
  | cons event events ih =>
    have hevent := hplain event List.mem_cons_self
    rw [List.append_cons]
    refine ih (h.concat ?_) (fun token hremoved => ?_)
      fun other hother => hplain other (List.mem_cons_of_mem _ hother)
    · cases event with
      | found other token =>
        obtain ⟨-, entry, hentry⟩ := hevent
        intro hremoved
        rw [hgone token hremoved] at hentry
        cases hentry
      | commanded other owner b files accepted =>
        cases hevent
        trivial
      | _ => trivial
    · have hsingle : ∀ other ∈ [event], Plain s task other := by
        intro other hother
        rw [List.mem_singleton.1 hother]
        exact hevent
      exact hgone token (hremoved.of_plain hsingle)

end Record

/-! ## The steps -/

theorem toRemove_of_underWay {pc : Pc} (h : pc.underWay) : pc.toRemove = [] := by
  cases pc <;> trivial

theorem not_past_of_underWay {pc : Pc} (h : pc.underWay) : ¬ pc.past := by
  cases pc <;> first | exact id | cases h

/-- What is spent stays so, if the party that steps sees to its own tokens. -/
theorem Spent.step (h : Spent s token) (task : Nat)
    (hlog : ∀ token, Removed s.log token → Removed s'.log token)
    (hothers : ∀ other ≠ task, s'.tasks other = s.tasks other)
    (hremove : token ∈ (s.tasks task).toRemove → Spent s' token)
    (hlost : ∀ b, s.tasks task ≠ .unanswered b) : Spent s' token := by
  rcases h with hremoved | ⟨other, hother⟩ | ⟨other, b, hother, hmem⟩
  · exact .inl (hlog token hremoved)
  · by_cases heq : other = task
    · exact hremove (heq ▸ hother)
    · refine .inr (.inl ⟨other, ?_⟩)
      rwa [hothers other heq]
  · by_cases heq : other = task
    · exact absurd (heq ▸ hother) (hlost b)
    · refine .inr (.inr ⟨other, b, ?_, hmem⟩)
      rwa [hothers other heq]

/-- **A party under way goes on.** -/
theorem OnceInv.proceed (h : OnceInv toLowercase s) {next : Pc × List ImportEvent}
    (hway : (s.tasks task).underWay) (hbase : Inv toLowercase (s.proceed task (.ok next)))
    (hheld : ∀ token ∈ next.1.held, token ∈ (s.tasks task).held ∨ .found task token ∈ next.2)
    (hplain : ∀ event ∈ next.2, Plain s task event) :
    OnceInv toLowercase (s.proceed task (.ok next)) where
  base := hbase
  stored := h.stored
  issued token owner value expires hmem := by
    rcases List.mem_append.1 hmem with hold | hnew
    · exact h.issued token owner value expires hold
    · exact (hplain _ hnew).elim
  found other token hmem := by
    rcases List.mem_append.1 hmem with hold | hnew
    · exact h.found other token hold
    · obtain ⟨-, entry, hentry⟩ := hplain _ hnew
      exact h.stored token entry hentry
  held other token htoken := by
    have htoken : token ∈ (Function.update s.tasks task next.1 other).held := htoken
    by_cases heq : other = task
    · subst heq
      rw [Function.update_self] at htoken
      rcases hheld token htoken with hold | hnew
      · exact List.mem_append_left _ (h.held other token hold)
      · exact List.mem_append_right _ hnew
    · rw [Function.update_of_ne heq] at htoken
      exact List.mem_append_left _ (h.held other token htoken)
  gone token hremoved := h.gone token (hremoved.of_plain hplain)
  log := looksBack_append h.log (fun token hremoved => (h.gone token hremoved).1) hplain
  past other token byRematch hmem := by
    have hold : .removed other token byRematch ∈ s.log := by
      rcases List.mem_append.1 hmem with hold | hnew
      · exact hold
      · exact (hplain _ hnew).elim
    have hne : other ≠ task := by
      rintro rfl
      exact not_past_of_underWay hway (h.past other token byRematch hold)
    show (Function.update s.tasks task next.1 other).past
    rw [Function.update_of_ne hne]
    exact h.past other token byRematch hold
  spent file hfile := by
    have hfile : file ∈ sent (s.log ++ next.2) := hfile
    rw [sent_append, sent_of_plain hplain, List.append_nil] at hfile
    refine (h.spent file hfile).step task (fun token hremoved => hremoved.append _)
      (fun other hne => Function.update_of_ne hne _ _) (fun hmem => ?_) fun b heq => ?_
    · rw [toRemove_of_underWay hway] at hmem
      cases hmem
    · rw [heq] at hway
      exact hway
  live token owner value expires hmem hnow hremoved := by
    have hold : .issued token owner value expires ∈ s.log := by
      rcases List.mem_append.1 hmem with hold | hnew
      · exact hold
      · exact (hplain _ hnew).elim
    exact h.live token owner value expires hold hnow fun hgone => hremoved (hgone.append _)
  once token := by
    show (sent (s.log ++ next.2)).countP _ ≤ 1
    rw [sent_append, sent_of_plain hplain, List.append_nil]
    exact h.once token

theorem System.proceed_error (s : System) (task : Nat) (fail : Fail) :
    s.proceed task (.error fail) = s.proceed task (.ok (.failed fail, [])) := by
  simp [System.proceed, System.record]

/-- A party under way fails. -/
theorem OnceInv.fail (h : OnceInv toLowercase s) (fail : Fail) (hway : (s.tasks task).underWay) :
    OnceInv toLowercase (s.proceed task (.error fail)) := by
  have hbase : Inv toLowercase (s.proceed task (.error fail)) := h.base.fail fail
  rw [System.proceed_error] at hbase ⊢
  exact h.proceed hway hbase (fun _ hmem => absurd hmem List.not_mem_nil)
    fun _ hmem => absurd hmem List.not_mem_nil

/-- **A party under way goes on or fails.** -/
theorem OnceInv.proceed_of (h : OnceInv toLowercase s)
    {next : Except Fail (Pc × List ImportEvent)} (hway : (s.tasks task).underWay)
    (hbase : Inv toLowercase (s.proceed task next))
    (hnext : ∀ ok, next = .ok ok →
      (∀ token ∈ ok.1.held, token ∈ (s.tasks task).held ∨ .found task token ∈ ok.2) ∧
        ∀ event ∈ ok.2, Plain s task event) :
    OnceInv toLowercase (s.proceed task next) := by
  cases next with
  | ok next => exact h.proceed hway hbase (hnext next rfl).1 (hnext next rfl).2
  | error fail => exact h.fail fail hway

/-- **A token is issued.** -/
theorem OnceInv.issue (h : OnceInv toLowercase s) {uuid : String} {entry : Entry} {pc : Pc}
    {rest : List TokenValue} (hpc : s.tasks task = .offering owner rest)
    (hfresh : uuid ∉ s.issued) (hheld : pc.held = []) (hpast : pc.past)
    (hbase : Inv toLowercase (((s.issue uuid entry).record
      [.issued uuid entry.owner entry.value entry.expires]).move task pc)) :
    OnceInv toLowercase (((s.issue uuid entry).record
      [.issued uuid entry.owner entry.value entry.expires]).move task pc) := by
  have hremoved : ∀ {token}, Removed
      (s.log ++ [.issued uuid entry.owner entry.value entry.expires]) token → Removed s.log token :=
    fun ⟨other, byRematch, hmem⟩ => ⟨other, byRematch, by simpa using hmem⟩
  have hlog : Log.EachAfter LooksBack
      (s.log ++ [.issued uuid entry.owner entry.value entry.expires]) := h.log.concat trivial
  have hsent : sent (s.log ++ [.issued uuid entry.owner entry.value entry.expires])
      = sent s.log := by
    rw [sent_append]
    exact List.append_nil _
  refine ⟨hbase, fun token found hfound => ?_, fun token owner value expires hmem => ?_,
    fun other token hmem => ?_, fun other token htoken => ?_, fun token hgone => ?_,
    hlog, fun other token byRematch hmem => ?_, fun file hfile => ?_,
    fun token owner value expires hmem hnow hlive => ?_, fun token => ?_⟩
  · have hfound : (s.issue uuid entry).tokens token = some found := hfound
    by_cases heq : token = uuid
    · subst heq
      exact List.mem_cons_self
    · rw [System.tokens_issue_of_ne s heq] at hfound
      exact List.mem_cons_of_mem _ (h.stored token found (Option.filter_eq_some_iff.1 hfound).1)
  · rcases List.mem_append.1 hmem with hold | hnew
    · exact List.mem_cons_of_mem _ (h.issued token owner value expires hold)
    · cases List.mem_singleton.1 hnew
      exact List.mem_cons_self
  · refine List.mem_cons_of_mem _ (h.found other token ?_)
    have hmem : .found other token ∈ s.log ++ [_] := hmem
    simpa using hmem
  · have htoken : token ∈ (Function.update s.tasks task pc other).held := htoken
    by_cases heq : other = task
    · rw [heq, Function.update_self, hheld] at htoken
      cases htoken
    · rw [Function.update_of_ne heq] at htoken
      exact List.mem_append_left _ (h.held other token htoken)
  · obtain ⟨hnone, hissued⟩ := h.gone token (hremoved hgone)
    have hne : token ≠ uuid := fun heq => hfresh (heq ▸ hissued)
    refine ⟨?_, List.mem_cons_of_mem _ hissued⟩
    show (s.issue uuid entry).tokens token = none
    rw [System.tokens_issue_of_ne s hne, hnone]
    rfl
  · have hold : .removed other token byRematch ∈ s.log := by
      have hmem : .removed other token byRematch ∈ s.log ++ [_] := hmem
      simpa using hmem
    show (Function.update s.tasks task pc other).past
    by_cases heq : other = task
    · rw [heq, Function.update_self]
      exact hpast
    · rw [Function.update_of_ne heq]
      exact h.past other token byRematch hold
  · have hfile : file ∈ sent (s.log ++ [.issued uuid entry.owner entry.value entry.expires]) :=
      hfile
    rw [hsent] at hfile
    refine (h.spent file hfile).step task (fun token hgone => hgone.append _)
      (fun other hne => Function.update_of_ne hne _ _) (fun hmem => ?_) fun b heq => ?_
    · rw [hpc] at hmem
      cases hmem
    · rw [hpc] at heq
      cases heq
  · show (s.issue uuid entry).tokens token = _
    rcases List.mem_append.1 hmem with hold | hnew
    · have hne : token ≠ uuid := fun heq => hfresh (heq ▸ h.issued token owner value expires hold)
      have hkept := h.live token owner value expires hold hnow fun hgone => hlive (hgone.append _)
      rw [System.tokens_issue_of_ne s hne, hkept]
      exact Option.filter_eq_some_iff.2 ⟨rfl, decide_eq_true hnow⟩
    · cases List.mem_singleton.1 hnew
      exact System.tokens_issue_self s
  · show (sent (s.log ++ [_])).countP _ ≤ 1
    rw [hsent]
    exact h.once token

/-- **A token is taken out** by a rematch, or after a command. -/
theorem OnceInv.remove (h : OnceInv toLowercase s) {token : String} {pc : Pc} {byRematch : Bool}
    (hheld : token ∈ (s.tasks task).held) (hrest : ∀ other ∈ pc.held, other ∈ (s.tasks task).held)
    (hpast : pc.past)
    (hremove : ∀ other ∈ (s.tasks task).toRemove, other = token ∨ other ∈ pc.toRemove)
    (hlost : ∀ b, s.tasks task ≠ .unanswered b)
    (hbase : Inv toLowercase
      (((s.remove token).record [.removed task token byRematch]).move task pc)) :
    OnceInv toLowercase
      (((s.remove token).record [.removed task token byRematch]).move task pc) := by
  have hremoved : ∀ {other}, Removed (s.log ++ [.removed task token byRematch]) other →
      Removed s.log other ∨ other = token := by
    rintro other ⟨task', byRematch', hmem⟩
    rcases List.mem_append.1 hmem with hold | hnew
    · exact .inl ⟨task', byRematch', hold⟩
    · cases List.mem_singleton.1 hnew
      exact .inr rfl
  have hlog : Log.EachAfter LooksBack (s.log ++ [.removed task token byRematch]) :=
    h.log.concat trivial
  have hsent : sent (s.log ++ [.removed task token byRematch]) = sent s.log := by
    rw [sent_append]
    exact List.append_nil _
  have hnow : Removed (s.log ++ [.removed task token byRematch]) token :=
    ⟨task, byRematch, List.mem_append_right _ List.mem_cons_self⟩
  refine ⟨hbase, fun other found hfound => ?_, fun other owner value expires hmem => ?_,
    fun other token' hmem => ?_, fun other token' htoken => ?_, fun other hgone => ?_,
    hlog, fun other token' byRematch' hmem => ?_, fun file hfile => ?_,
    fun other owner value expires hmem hunexpired hlive => ?_, fun other => ?_⟩
  · have hfound : (s.remove token).tokens other = some found := hfound
    by_cases heq : other = token
    · rw [heq, System.tokens_remove_self] at hfound
      cases hfound
    · rw [System.tokens_remove_of_ne s heq] at hfound
      exact h.stored other found hfound
  · refine h.issued other owner value expires ?_
    have hmem : .issued other owner value expires ∈ s.log ++ [_] := hmem
    simpa using hmem
  · refine h.found other token' ?_
    have hmem : .found other token' ∈ s.log ++ [_] := hmem
    simpa using hmem
  · have htoken : token' ∈ (Function.update s.tasks task pc other).held := htoken
    by_cases heq : other = task
    · rw [heq, Function.update_self] at htoken
      rw [heq]
      exact List.mem_append_left _ (h.held task token' (hrest token' htoken))
    · rw [Function.update_of_ne heq] at htoken
      exact List.mem_append_left _ (h.held other token' htoken)
  · show (s.remove token).tokens other = none ∧ other ∈ s.issued
    by_cases heq : other = token
    · rw [heq, System.tokens_remove_self]
      exact ⟨rfl, h.found task token (h.held task token hheld)⟩
    · rw [System.tokens_remove_of_ne s heq]
      exact h.gone other ((hremoved hgone).resolve_right heq)
  · show (Function.update s.tasks task pc other).past
    by_cases heq : other = task
    · rw [heq, Function.update_self]
      exact hpast
    · rw [Function.update_of_ne heq]
      rcases List.mem_append.1 hmem with hold | hnew
      · exact h.past other token' byRematch' hold
      · cases List.mem_singleton.1 hnew
        exact absurd rfl heq
  · have hfile : file ∈ sent (s.log ++ [.removed task token byRematch]) := hfile
    rw [hsent] at hfile
    refine (h.spent file hfile).step task (fun token hgone => hgone.append _)
      (fun other hne => Function.update_of_ne hne _ _) (fun hmem => ?_) hlost
    rcases hremove _ hmem with heq | hmem
    · rw [heq]
      exact .inl hnow
    · refine .inr (.inl ⟨task, ?_⟩)
      show _ ∈ (Function.update s.tasks task pc task).toRemove
      rwa [Function.update_self]
  · show (s.remove token).tokens other = _
    have hne : other ≠ token := by
      rintro rfl
      exact hlive hnow
    have hold : .issued other owner value expires ∈ s.log := by
      have hmem : .issued other owner value expires ∈ s.log ++ [_] := hmem
      simpa using hmem
    rw [System.tokens_remove_of_ne s hne]
    exact h.live other owner value expires hold hunexpired fun hgone => hlive (hgone.append _)
  · show (sent (s.log ++ [_])).countP _ ≤ 1
    rw [hsent]
    exact h.once other

/-- **A command is accepted**, and answered or not: no token of its list has been taken
out, and no file of one has been sent. -/
theorem OnceInv.accept (h : OnceInv toLowercase s) {files : List File} {pc : Pc}
    (hpc : s.tasks task = .commanding owner b files) (hok : Ok s (.command task .lost))
    (hheld : ∀ token ∈ pc.held, token ∈ b.tokens)
    (hspent : ∀ token ∈ b.tokens,
      token ∈ pc.toRemove ∨ ∃ b', pc = .unanswered b' ∧ token ∈ b'.tokens)
    (hbase : Inv toLowercase ((s.record [.commanded task owner b files true]).move task pc)) :
    OnceInv toLowercase ((s.record [.commanded task owner b files true]).move task pc) := by
  obtain ⟨hnodup, hok⟩ := hok owner b files hpc
  have hready := h.base.tasks task
  rw [hpc] at hready
  have htokens : files.map (fun file => file.stored.token) = b.tokens := hready.2.picked.tokens
  have hmem : ∀ file ∈ files, file.stored.token ∈ b.tokens :=
    fun file hfile => htokens ▸ List.mem_map_of_mem hfile
  have hfound : ∀ token ∈ b.tokens, .found task token ∈ s.log := by
    intro token htoken
    refine h.held task token ?_
    rwa [hpc]
  have hlive : ∀ token ∈ b.tokens, ¬ Removed s.log token := by
    rintro token htoken ⟨other, byRematch, hremoved⟩
    obtain ⟨before, after, heq⟩ := List.append_of_mem (hfound token htoken)
    rw [heq] at hremoved
    rcases List.mem_append.1 hremoved with hbefore | hafter
    · exact h.log before _ after heq ⟨other, byRematch, hbefore⟩
    · rcases List.mem_cons.1 hafter with hsame | hafter
      · cases hsame
      · exact (hok token htoken).1 before after heq other byRematch hafter
  have hnew : ∀ file ∈ sent s.log, file.stored.token ∉ b.tokens := by
    intro file hfile htoken
    rcases h.spent file hfile with hremoved | ⟨other, hother⟩ | ⟨other, b', hother, hlost⟩
    · exact hlive _ htoken hremoved
    · exact (hok _ htoken).2.1 other hother
    · exact (hok _ htoken).2.2 other b' hother hlost
  have hremoved : ∀ {token}, Removed (s.log ++ [.commanded task owner b files true]) token →
      Removed s.log token :=
    fun ⟨other, byRematch, hmem⟩ => ⟨other, byRematch, by simpa using hmem⟩
  have hsent : sent (s.log ++ [.commanded task owner b files true]) = sent s.log ++ files := by
    rw [sent_append]
    exact congrArg (sent s.log ++ ·) (List.append_nil files)
  refine ⟨hbase, h.stored, fun token owner value expires hmem => ?_,
    fun other token hmem => ?_, fun other token htoken => ?_,
    fun token hgone => h.gone token (hremoved hgone), h.log.concat fun file hfile other hgone => ?_,
    fun other token byRematch hmem => ?_, fun file hfile => ?_,
    fun token owner value expires hmem hnow hkept => ?_, fun token => ?_⟩
  · refine h.issued token owner value expires ?_
    have hmem : .issued token owner value expires ∈ s.log ++ [_] := hmem
    simpa using hmem
  · refine h.found other token ?_
    have hmem : .found other token ∈ s.log ++ [_] := hmem
    simpa using hmem
  · have htoken : token ∈ (Function.update s.tasks task pc other).held := htoken
    by_cases heq : other = task
    · rw [heq, Function.update_self] at htoken
      rw [heq]
      exact List.mem_append_left _ (hfound token (hheld token htoken))
    · rw [Function.update_of_ne heq] at htoken
      exact List.mem_append_left _ (h.held other token htoken)
  · exact hlive _ (hmem file hfile) ⟨other, true, hgone⟩
  · have hold : .removed other token byRematch ∈ s.log := by
      have hmem : .removed other token byRematch ∈ s.log ++ [_] := hmem
      simpa using hmem
    have hpast := h.past other token byRematch hold
    have hne : other ≠ task := by
      rintro rfl
      rw [hpc] at hpast
      exact hpast
    show (Function.update s.tasks task pc other).past
    rwa [Function.update_of_ne hne]
  · have hfile : file ∈ sent (s.log ++ [.commanded task owner b files true]) := hfile
    rw [hsent] at hfile
    rcases List.mem_append.1 hfile with hold | hfile
    · refine (h.spent file hold).step task (fun token hgone => hgone.append _)
        (fun other hne => Function.update_of_ne hne _ _) (fun hmem => ?_) fun b heq => ?_
      · rw [hpc] at hmem
        cases hmem
      · rw [hpc] at heq
        cases heq
    · rcases hspent _ (hmem file hfile) with hremove | ⟨b', rfl, hlost⟩
      · refine .inr (.inl ⟨task, ?_⟩)
        show _ ∈ (Function.update s.tasks task pc task).toRemove
        rwa [Function.update_self]
      · exact .inr (.inr ⟨task, b', Function.update_self _ _ _, hlost⟩)
  · have hold : .issued token owner value expires ∈ s.log := by
      have hmem : .issued token owner value expires ∈ s.log ++ [_] := hmem
      simpa using hmem
    exact h.live token owner value expires hold hnow fun hgone => hkept (hgone.append _)
  · show (sent (s.log ++ [.commanded task owner b files true])).countP _ ≤ 1
    rw [hsent, List.countP_append]
    by_cases htoken : token ∈ b.tokens
    · have hzero : (sent s.log).countP (fun file => file.stored.token = token) = 0 := by
        refine List.countP_eq_zero.2 fun file hfile heq => hnew file hfile ?_
        rwa [of_decide_eq_true heq]
      have hone : files.countP (fun file => file.stored.token = token) ≤ 1 := by
        have hcount := List.nodup_iff_count.1 hnodup token
        rw [← htokens, List.count, List.countP_map] at hcount
        exact hcount
      omega
    · have hzero : files.countP (fun file => file.stored.token = token) = 0 := by
        refine List.countP_eq_zero.2 fun file hfile heq => htoken ?_
        rw [← of_decide_eq_true heq]
        exact hmem file hfile
      have hone := h.once token
      omega

theorem not_mem_held_begun (request : Request) (resolved : Except Fail (Bool × Int)) :
    token ∉ (begun resolved request).held := by
  have hgoOn : ∀ {next : Except Fail Pc}, (∀ pc, next = .ok pc → pc.held = []) →
      token ∉ (goOn next).held := by
    intro next hnext hmem
    cases next with
    | ok pc =>
      rw [goOn, hnext pc rfl] at hmem
      cases hmem
    | error fail => cases hmem
  cases request with
  | sources userId mediaId is4k intervention =>
    refine hgoOn fun pc hpc => ?_
    obtain ⟨c, -, hpc⟩ := except_bind_eq_ok hpc
    cases hpc
    rfl
  | scan userId mediaId sourceToken is4k =>
    simp only [begun]
    split
    · exact List.not_mem_nil
    · refine hgoOn fun pc hpc => ?_
      obtain ⟨c, -, hpc⟩ := except_bind_eq_ok hpc
      cases hpc
      rfl
  | list userId mediaId is4k =>
    refine hgoOn fun pc hpc => ?_
    obtain ⟨c, -, hpc⟩ := except_bind_eq_ok hpc
    cases hpc
    rfl
  | reprocess userId mediaId candidateToken episodeIds is4k =>
    simp only [begun]
    split
    · exact List.not_mem_nil
    · refine hgoOn fun pc hpc => ?_
      obtain ⟨c, -, hpc⟩ := except_bind_eq_ok hpc
      split at hpc
      · cases hpc
      · cases hpc
        rfl
  | imports userId mediaId b =>
    refine hgoOn fun pc hpc => ?_
    obtain ⟨c, -, hpc⟩ := except_bind_eq_ok hpc
    split at hpc
    · cases hpc
    · cases hpc
      rfl

/-- **One step of a party, or of the clock**, under the condition. -/
theorem OnceInv.next (h : OnceInv toLowercase s) {act : Act} (hok : Ok s act)
    (hstep : Step toLowercase s act s') : OnceInv toLowercase s' := by
  have hbase : Inv toLowercase s' := h.base.step hstep
  unfold Step ManualImports.step at hstep
  cases act with
  | start task request resolved =>
    dsimp only at hstep
    split at hstep
    · rename_i hpc
      cases hstep
      refine h.proceed (by rw [hpc]; trivial) hbase (fun token htoken => ?_) (by simp [Plain])
      exact absurd htoken (not_mem_held_begun request resolved)
    · cases hstep
  | redeem task =>
    obtain ⟨next, hnext, rfl⟩ := Option.map_eq_some_iff.1 hstep
    refine h.proceed_of (underWay_of_redeemed hnext) hbase fun ok hok => ?_
    obtain ⟨found, rfl, rfl⟩ := except_map_eq_ok hok
    obtain ⟨hheld, hstored⟩ := redeemed_held (h.base.tasks task) hnext
    refine ⟨fun token htoken => (hheld token htoken).imp id (List.mem_map_of_mem), ?_⟩
    intro event hevent
    obtain ⟨token, htoken, rfl⟩ := List.mem_map.1 hevent
    exact ⟨rfl, hstored token htoken⟩
  | answer task answer =>
    cases answer with
    | some answer =>
      obtain ⟨next, hnext, rfl⟩ := Option.map_eq_some_iff.1 hstep
      refine h.proceed_of (underWay_of_answered hnext) hbase fun ok hok => ?_
      rw [hok] at hnext
      obtain ⟨hheld, hplain⟩ := answered_held hnext
      exact ⟨fun token htoken => .inl (hheld token htoken), hplain⟩
    | none =>
      obtain ⟨next, hnext, rfl⟩ := Option.map_eq_some_iff.1 hstep
      exact h.fail _ (underWay_of_answered hnext)
  | load task download =>
    dsimp only at hstep
    split at hstep
    · rename_i owner found hpc
      cases hstep
      refine h.proceed_of (by rw [hpc]; trivial) hbase fun ok hok => ?_
      obtain ⟨download, -, rfl⟩ := except_map_eq_ok hok
      exact ⟨fun token htoken => absurd htoken not_mem_held_offer,
        fun _ hmem => absurd hmem List.not_mem_nil⟩
    · rename_i owner b files hpc
      cases hstep
      refine h.proceed_of (by rw [hpc]; trivial) hbase fun ok hok => ?_
      obtain ⟨download, -, hok⟩ := except_bind_eq_ok hok
      split at hok
      · obtain ⟨pc, hnext, rfl⟩ := except_map_eq_ok hok
        refine ⟨fun token htoken => .inl ?_, fun _ hmem => absurd hmem List.not_mem_nil⟩
        have htoken : token ∈ pc.held := htoken
        rw [held_overrideNext hnext] at htoken
        rwa [hpc]
      · cases hok
    · cases hstep
  | claim task claimed =>
    dsimp only at hstep
    split at hstep
    · rename_i owner b files hpc
      cases hstep
      refine h.proceed_of (by rw [hpc]; trivial) hbase fun ok hok => ?_
      obtain ⟨claimed, -, hok⟩ := except_bind_eq_ok hok
      split at hok
      · cases hok
        refine ⟨fun token htoken => .inl ?_, fun _ hmem => absurd hmem List.not_mem_nil⟩
        rw [hpc]
        exact htoken
      · cases hok
    · cases hstep
  | command task outcome =>
    dsimp only at hstep
    split at hstep
    · rename_i owner b files hpc
      cases outcome with
      | accepted answer =>
        cases hstep
        exact h.accept hpc hok (fun _ => id) (fun token htoken => .inl htoken) hbase
      | refused =>
        cases hstep
        have hplain : ∀ event ∈ [ImportEvent.commanded task owner b files false],
            Plain s task event := by
          intro event hevent
          rw [List.mem_singleton.1 hevent]
          rfl
        have hnext : OnceInv toLowercase (s.proceed task
            (.ok (.failed .arr, [.commanded task owner b files false]))) :=
          h.proceed (by rw [hpc]; trivial) hbase (fun _ hmem => absurd hmem List.not_mem_nil) hplain
        exact hnext
      | lost =>
        cases hstep
        exact h.accept hpc hok nofun (fun token htoken => .inr ⟨b, rfl, htoken⟩) hbase
    · cases hstep
  | remove task =>
    dsimp only at hstep
    split at hstep
    · rename_i owner stored answer hpc
      cases hstep
      refine h.remove ?_ nofun trivial ?_ ?_ hbase
      · rw [hpc]
        exact List.mem_cons_self
      · rw [hpc]
        exact nofun
      · rw [hpc]
        exact nofun
    · rename_i owner token rest value hpc
      cases hstep
      refine h.remove ?_ ?_ ?_ ?_ ?_ hbase
      · rw [hpc]
        exact List.mem_cons_self
      · intro other hother
        rw [hpc]
        split at hother
        · cases hother
        · exact List.mem_cons_of_mem _ hother
      · split <;> trivial
      · intro other hother
        rw [hpc] at hother
        rcases List.mem_cons.1 hother with rfl | hother
        · exact .inl rfl
        · refine .inr ?_
          rw [if_neg (List.ne_nil_of_mem hother)]
          exact hother
      · rw [hpc]
        exact nofun
    · cases hstep
  | issue task uuid =>
    dsimp only at hstep
    split at hstep
    · rename_i owner value rest hpc
      split at hstep
      · cases hstep
      · rename_i hfresh
        cases hstep
        refine h.issue hpc hfresh (List.eq_nil_iff_forall_not_mem.2 fun _ => not_mem_held_offer) ?_
          hbase
        unfold offer
        split <;> trivial
    · cases hstep
  | tick ms =>
    cases hstep
    exact ⟨hbase, h.stored, h.issued, h.found, h.held, h.gone, h.log, h.past, h.spent,
      fun token owner value expires hmem hnow => h.live token owner value expires hmem
        (Nat.lt_of_le_of_lt (Nat.le_add_right _ _) hnow), h.once⟩

/-! ## Every run -/

theorem OnceInv.start : OnceInv toLowercase {} where
  base := ⟨nofun, fun _ => trivial, Log.eachAfter_nil⟩
  stored := nofun
  issued := nofun
  found := nofun
  held := fun _ => nofun
  gone := fun _ hremoved => by
    obtain ⟨_, _, hmem⟩ := hremoved
    cases hmem
  log := Log.eachAfter_nil
  past := nofun
  spent := nofun
  live := nofun
  once := fun _ => Nat.zero_le 1

/-- **Every candidate is imported once**, if it is, in every run whose steps meet the
condition. -/
theorem imported_once {acts : List Act}
    (h : Run (Guarded (Step toLowercase) Ok) {} acts s) : ImportedOnce s := by
  have hinv : OnceInv toLowercase s :=
    h.invariant (fun _ _ _ hs hstep => OnceInv.next hs hstep.1 hstep.2) .start
  refine ⟨hinv.once, fun before after task owner b files heq => hinv.log before _ after heq, ?_⟩
  intro task fail hpc token owner value expires hissued hnow hothers
  have hlive : ¬ Removed s.log token := by
    rintro ⟨other, byRematch, hmem⟩
    by_cases heq : other = task
    · have hpast := hinv.past other token byRematch hmem
      rw [heq, hpc] at hpast
      exact hpast
    · exact hothers other heq byRematch hmem
  have hentry := hinv.live token owner value expires hissued hnow hlive
  rw [System.get, hentry]
  exact Option.filter_eq_some_iff.2 ⟨rfl, decide_eq_true hnow⟩

/-! ## Two runs -/

private def movieCandidate : Json :=
  .obj [("path", .str "/x/film.mkv"), ("movie", .obj []), ("quality", .obj []),
    ("languages", .arr [.obj []])]

/-- A movie's candidate is listed, and an import looks its token up. -/
private def listedFilm : List Act :=
  [.start 0 (.list 7 5 false) (.ok (true, 21)), .answer 0 sampleQueue,
    .answer 0 (some (.arr [movieCandidate])), .issue 0 "film",
    .start 1 (.imports 7 5 ⟨["film"], false, false, false, [], [], none⟩) (.ok (true, 21)),
    .redeem 1, .answer 1 sampleQueue]

/-- An import that is refused, and another one up to its command. -/
private def retriedFilm : List Act :=
  listedFilm ++ [.command 1 .refused,
    .start 2 (.imports 7 5 ⟨["film"], false, false, false, [], [], none⟩) (.ok (true, 21)),
    .redeem 2, .answer 2 sampleQueue]

/-- A party has no tokens to take out, and no answer of its was lost. -/
private def calm : Pc → Bool
  | .removing _ _ _ | .unanswered _ => false
  | _ => true

/-- The film is sent once. -/
theorem imported_once_film : ∃ s, Run (Guarded (Step asciiLowercase) Ok) {}
      (retriedFilm ++ [.command 2 (.accepted (.obj []))]) s ∧
    (sent s.log).length = 1 ∧ ImportedOnce s := by
  have hbefore : (retriedFilm.foldlM (step asciiLowercase) {}).map (fun s =>
      ((s.tasks 2).held, calm (s.tasks 0) && calm (s.tasks 1) && calm (s.tasks 2),
        s.log.filter fun event => event matches .removed _ _ _)) = some (["film"], true, []) := by
    decide +kernel
  have hafter : ((retriedFilm ++ [Act.command 2 (.accepted (.obj []))]).foldlM
      (step asciiLowercase) {}).map (fun s => (sent s.log).length) = some 1 := by
    decide +kernel
  obtain ⟨s, hs, hobs⟩ := Option.map_eq_some_iff.1 hbefore
  obtain ⟨s', hs', hsent⟩ := Option.map_eq_some_iff.1 hafter
  rw [Prod.mk.injEq, Prod.mk.injEq, Bool.and_eq_true_iff, Bool.and_eq_true_iff] at hobs
  obtain ⟨hheld, ⟨⟨hzero, hone⟩, htwo⟩, hremoved⟩ := hobs
  rw [List.foldlM_append, hs] at hs'
  have hcommand : Step asciiLowercase s (.command 2 (.accepted (.obj []))) s' := by
    have hs' : [Act.command 2 (.accepted (.obj []))].foldlM (step asciiLowercase) s = some s' := hs'
    rw [List.foldlM_cons] at hs'
    obtain ⟨t, ht, hnil⟩ := Option.bind_eq_some_iff.1 hs'
    cases hnil
    exact ht
  have hstart : Run (Step asciiLowercase) {} retriedFilm s := Run.of_foldlM hs
  have hcalm : ∀ other, calm (s.tasks other) = true := by
    intro other
    by_cases hother : other = 0 ∨ other = 1 ∨ other = 2
    · rcases hother with rfl | rfl | rfl <;> assumption
    · have hidle : s.tasks other = .idle := by
        refine tasks_of_run hstart fun act hact => ?_
        simp only [retriedFilm, listedFilm, List.cons_append, List.nil_append, List.mem_cons,
          List.not_mem_nil, or_false] at hact
        rcases hact with rfl | rfl | rfl | rfl | rfl | rfl | rfl | rfl | rfl | rfl | rfl <;>
          (simp only [Act.task, ne_eq, Option.some.injEq]; omega)
      rw [hidle]
      rfl
  have hok : Ok s (.command 2 (.accepted (.obj []))) := by
    intro owner b files hpc
    rw [hpc] at hheld
    have htokens : b.tokens = ["film"] := hheld
    rw [htokens]
    refine ⟨by decide, fun token _ => ⟨fun before after heq other byRematch hmem => ?_,
      fun other hmem => ?_, fun other b' hother _ => ?_⟩⟩
    · have hlog : .removed other token byRematch ∈ s.log := by
        rw [heq]
        exact List.mem_append_right _ (List.mem_cons_of_mem _ hmem)
      exact List.not_mem_nil (hremoved ▸ List.mem_filter.2 ⟨hlog, rfl⟩)
    · have hother := hcalm other
      cases hat : s.tasks other with
      | removing owner rest value =>
        rw [hat] at hother
        cases hother
      | _ =>
        rw [hat] at hmem
        cases hmem
    · have hquiet := hcalm other
      rw [hother] at hquiet
      cases hquiet
  have hguarded : Run (Guarded (Step asciiLowercase) Ok) {} retriedFilm s := by
    refine hstart.guard fun act hact s => ?_
    simp only [retriedFilm, listedFilm, List.cons_append, List.nil_append, List.mem_cons,
      List.not_mem_nil, or_false] at hact
    rcases hact with rfl | rfl | rfl | rfl | rfl | rfl | rfl | rfl | rfl | rfl | rfl <;> trivial
  have hrun := hguarded.append (.single ⟨hok, hcommand⟩)
  exact ⟨s', hrun, hsent, imported_once hrun⟩

/-- A second import looks the token up before the first one's command is accepted. -/
private def overlappingImports : List Act :=
  listedFilm ++ [.start 2 (.imports 7 5 ⟨["film"], false, false, false, [], [], none⟩)
      (.ok (true, 21)),
    .redeem 2, .answer 2 sampleQueue, .command 1 (.accepted (.obj [])),
    .command 2 (.accepted (.obj []))]

/-- **Two imports that overlap send the file twice.** -/
theorem file_sent_twice : ¬ ∀ acts s, Run (Step asciiLowercase) {} acts s → ImportedOnce s := by
  intro hclaim
  have hrun : (overlappingImports.foldlM (step asciiLowercase) {}).map
      (fun s => (sent s.log).countP fun file => file.stored.token = "film") = some 2 := by
    decide +kernel
  obtain ⟨s, hs, hcount⟩ := Option.map_eq_some_iff.1 hrun
  have honce := (hclaim overlappingImports s (Run.of_foldlM hs)).once "film"
  rw [hcount] at honce
  exact absurd honce (by decide)

end ManualImports

end Foreseerr
