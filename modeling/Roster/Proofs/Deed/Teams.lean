import Roster.Proofs.Deed.Members

/-!
# Calls keep to their deeds: teams

Creating a team founds it in one unit of work. Updating a team reads the record,
changes the given fields one after another, and writes the whole record back.
Deleting a team dissolves it in one unit of work.
-/

namespace Roster

open Program

variable {rely : Rely}

theorem serves_createTeam (config : Config) (input : CreateTeam) :
    (createTeam config input).Serves rely (.act config (.createTeam input)) .team [] := by
  unfold createTeam
  apply serves_input
  intro name hname
  apply serves_check
  intro hlimit
  refine knowing_read (fun _ => rfl) ?_
  intro other
  apply serves_check
  intro hother
  apply knowing_now
  intro now
  apply serves_atomically
  intro w team hseen hresult
  simp only [List.forall_mem_cons, Option.isNone_iff_eq_none, decide_eq_true_eq] at hseen hother hlimit
  obtain ⟨hdated, hfree, -⟩ := hseen
  subst hother
  have hfounding : Founding rely config input name now w _ team :=
    { named := hname
      limited := hlimit
      free := hfree
      dated := hdated
      written := UnitOfWork.foundTeam_gives.mp ⟨hresult, rfl⟩ }
  exact ⟨.ok team, rfl, .founds hfounding⟩

/-! ## Updates -/

namespace UpdateTeam

@[simp]
theorem applyDescription_id (team : Team) (now : Instant) (description : Option (Option String)) :
    (applyDescription team now description).id = team.id := by
  cases description <;> rfl

@[simp]
theorem applyVisibility_id (team : Team) (now : Instant) (visibility : Option Visibility) :
    (applyVisibility team now visibility).id = team.id := by
  cases visibility <;> rfl

section

variable {α : Type} {deed : World Tables → Tables → Except Failure α → Prop}
  {quiet : World Tables → Except Failure α → Prop} {seen : List (World Tables → Prop)}
  {before : Team} {now : Instant} {f : Team → Program α}

/-- Giving a name fails, or the name is checked and the team renamed. -/
theorem knowing_applyName {given : Option String}
    (hrefuse : ∀ e seen', (refuse e : Program α).Knowing rely deed quiet seen')
    (h : ∀ name seen', Option.Rel (fun given checked => TeamName.validate given = .ok checked)
        given name →
      (∀ fact ∈ seen, fact ∈ seen') →
      (f (name.elim before (before.rename · now))).Knowing rely deed quiet seen') :
    (ofWork (applyName before now given) >>= f).Knowing rely deed quiet seen := by
  cases given with
  | none => exact h none seen .none fun _ hfact => hfact
  | some text =>
    unfold applyName
    simp only [ofWork_bind, bind_assoc, ofWork_pure, pure_bind]
    refine knowing_ofInput (fun _ _ => hrefuse _ _) ?_
    intro name hname
    refine knowing_read (fun _ => rfl) ?_
    intro other
    refine knowing_require (fun _ => hrefuse _ _) ?_
    intro _
    exact h (some name) _ (.some hname) fun _ hfact => List.mem_cons_of_mem _ hfact

/-- Giving a limit fails, or it is at least the number of members seen, after all
that had been seen before. -/
theorem knowing_applyLimit {team : Team} {given : Option UInt32} (hid : team.id = before.id)
    (hrefuse : ∀ e seen', (refuse e : Program α).Knowing rely deed quiet seen')
    (h : ∀ seen', (∀ fact ∈ seen, fact ∈ seen') →
      (∀ limit, given = some limit → limit ≠ 0 ∧ ∃ count, count ≤ limit ∧
        (fun v : World Tables => v.store.countMembers before.id = count ∧
          ∀ fact ∈ seen, rely.Seen v fact) ∈ seen') →
      (f (given.elim team fun limit => { team with memberLimit := limit, updatedAt := now })).Knowing
        rely deed quiet seen') :
    (ofWork (applyLimit team now given) >>= f).Knowing rely deed quiet seen := by
  cases given with
  | none => exact h seen (fun _ hfact => hfact) fun limit hlimit =>
      absurd hlimit.symm (Option.some_ne_none limit)
  | some limit =>
    unfold applyLimit
    simp only [ofWork_bind, bind_assoc, Membership.count, hid]
    refine knowing_read_after (fun _ => rfl) ?_
    intro count
    refine knowing_require (fun _ => hrefuse _ _) ?_
    intro hcount
    rw [decide_eq_true_eq] at hcount
    by_cases hzero : limit = 0
    · -- the team itself refuses the limit
      simp only [Team.setMemberLimit, if_pos hzero]
      exact hrefuse _ _
    · simp only [Team.setMemberLimit, if_neg hzero]
      refine h _ (fun _ hfact => List.mem_cons_of_mem _ hfact) ?_
      intro limit' hlimit
      cases hlimit
      exact ⟨hzero, count, hcount, List.mem_cons_self⟩

end

/-- The rest of an update once the team was read: the permission, the given fields,
and the write. -/
def amend (input : UpdateTeam) (before : Team) : Program Team := do
  let _ ← Membership.require before.id input.requesterId .updateTeam
  let now ← Work.now
  let team ← applyName before now input.name
  let team ← applyLimit (applyVisibility (applyDescription team now input.description) now
    input.visibility) now input.memberLimit
  let team ← Work.perform (.updateTeam team)
  Program.log (.teamUpdated team.id input.requesterId)
  return team

/-- An update reads the team and amends it. -/
theorem updateTeam_eq (input : UpdateTeam) :
    updateTeam input = ofWork (requireTeam input.teamId) >>= input.amend := by
  have hamend : input.amend = fun before => input.amend before := rfl
  rw [hamend]
  unfold updateTeam apply amend
  simp only [liftM_work, ofWork_bind, bind_assoc]

/-- Amending a team fails, or writes it back with the given fields changed. -/
theorem knowing_amend {input : UpdateTeam} {before : Team}
    {deed : World Tables → Tables → Except Failure Team → Prop}
    {quiet : World Tables → Except Failure Team → Prop} {seen : List (World Tables → Prop)}
    (hrefuse : ∀ e seen', (refuse e : Program Team).Knowing rely deed quiet seen')
    (h : ∀ w name now team s, (∀ fact ∈ seen, rely.Seen w fact) →
      (rely.Seen w fun v => ∃ member, v.store.findMember before.id input.requesterId =
        some member ∧ member.role.allows .updateTeam = true) →
      (rely.Seen w fun v => v.clock = now) →
      Option.Rel (fun given checked => TeamName.validate given = .ok checked) input.name name →
      (∀ limit, input.memberLimit = some limit → limit ≠ 0 ∧
        rely.Seen w fun v => v.store.countMembers before.id ≤ limit ∧
          ∀ fact ∈ seen, rely.Seen v fact) →
      w.store.updateTeam (input.revise name before now) = .ok (team, s) → deed w s (.ok team)) :
    (input.amend before).Knowing rely deed quiet seen := by
  unfold amend
  simp only [liftM_work]
  apply knowing_permission (fun _ _ => hrefuse _ _)
  intro member hallows
  apply knowing_now
  intro now
  apply knowing_applyName hrefuse
  intro name seen₁ hnamed hkept₁
  have hid : (applyVisibility (applyDescription (name.elim before (before.rename · now)) now
      input.description) now input.visibility).id = before.id := by
    cases name <;> simp [Team.rename]
  refine knowing_applyLimit hid hrefuse ?_
  intro seen₂ hkept₂ hlimit
  apply knowing_write (fun _ => hrefuse _ _)
  intro w team s _ hseen₂ hwrite
  -- what was seen before the name and the limit were applied is still seen
  have hseen₀ := fun fact hfact => hseen₂ fact (hkept₂ fact (hkept₁ fact hfact))
  have hkept₀ : ∀ fact ∈ seen, fact ∈ seen₁ := fun fact hfact =>
    hkept₁ fact (List.mem_cons_of_mem _ (List.mem_cons_of_mem _ hfact))
  simp only [List.forall_mem_cons] at hseen₀
  obtain ⟨hdated, hmember, hseen⟩ := hseen₀
  refine .inr ⟨.ok team, rfl, h w name now team s hseen
    (hmember.imp fun v hv => ⟨member, hv, hallows⟩) hdated hnamed ?_ hwrite⟩
  intro limit hgiven
  obtain ⟨hzero, count, hle, hmem⟩ := hlimit limit hgiven
  refine ⟨hzero, (hseen₂ _ hmem).imp ?_⟩
  rintro v ⟨hcount, hpast⟩
  exact ⟨hcount ▸ hle, fun fact hfact => hpast fact (hkept₀ fact hfact)⟩

end UpdateTeam

theorem serves_updateTeam (config : Config) (input : UpdateTeam) :
    (updateTeam input).Serves rely (.act config (.updateTeam input)) .team [] := by
  rw [UpdateTeam.updateTeam_eq]
  apply serves_requireTeam
  intro before
  refine UpdateTeam.knowing_amend (fun _ _ => serves_refuse _) ?_
  intro w name now team s hseen hpermitted hdated hnamed hlimited hwrite
  have hupdate : Update rely input name before now w s team :=
    { found := hseen _ List.mem_cons_self
      permitted := hpermitted
      dated := hdated
      named := hnamed
      limited := by
        intro limit hgiven
        obtain ⟨hzero, hcounted⟩ := hlimited limit hgiven
        refine ⟨hzero, hcounted.imp ?_⟩
        rintro v ⟨hle, hpast⟩
        exact ⟨hle, hpast _ List.mem_cons_self⟩
      written := hwrite }
  exact .updates hupdate

/-! ## Deletion -/

theorem serves_deleteTeam (config : Config) (team requester : Int) :
    (deleteTeam team requester).Serves rely (.act config (.deleteTeam team requester)) .count
      [] := by
  unfold deleteTeam
  simp only [liftM_work]
  apply serves_requireTeam
  intro found
  refine knowing_read (fun _ => rfl) ?_
  intro member
  apply serves_found
  intro member hmember
  apply serves_check
  intro hallows
  apply knowing_now
  intro now
  apply serves_atomically
  intro w count hseen hresult
  simp only [List.forall_mem_cons] at hseen
  obtain ⟨hdated, hacting, ⟨u, _, _, hfound⟩, -⟩ := hseen
  have hid : found.id = team := by
    have hpred := List.find?_some hfound
    simp only [Bool.and_eq_true, decide_eq_true_eq] at hpred
    exact hpred.1
  subst hid hmember
  have hdissolution : Dissolution rely found.id requester now w _ count :=
    { permitted := hacting.imp fun v hv => ⟨member, hv, hallows⟩
      dated := hdated
      written := UnitOfWork.dissolveTeam_gives.mp ⟨hresult, rfl⟩ }
  exact ⟨.ok count, rfl, .dissolves hdissolution⟩

end Roster
