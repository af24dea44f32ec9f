import ApiClientGen.Declaration.Interface
import Mathlib.Data.List.Nodup
import Mathlib.Logic.Function.Basic

/-!
Member keys read back. A key is a literal, or a run of identifier characters that goes as far as
it can. A name is read from its key together with what follows the key, whatever the name holds,
so that distinct names have distinct keys and no interface shows one key for two properties.
-/
namespace ApiClientGen.MemberKeys

open Declaration

section Keys

variable {name : String} {following : List Char}

theorem readMemberKey_memberKey (h : following.head? = some '?' ∨ following.head? = some ':') :
    readMemberKey ((memberKey name).toList ++ following) = some (name.toList, following) := by
  cases h with
  | inl hmark =>
    obtain ⟨rest, rfl⟩ := List.head?_eq_some_iff.mp hmark
    exact readMemberKey_append name (by decide) rest
  | inr hcolon =>
    obtain ⟨rest, rfl⟩ := List.head?_eq_some_iff.mp hcolon
    exact readMemberKey_append name (by decide) rest

theorem memberKey_injective : Function.Injective memberKey := by
  intro first second h
  have hfirst := readMemberKey_append first (c := ':') (by decide) []
  have hsecond := readMemberKey_append second (c := ':') (by decide) []
  rw [h, hsecond] at hfirst
  simp only [Option.some.injEq, Prod.mk.injEq, String.toList_inj] at hfirst
  exact hfirst.1.symm

theorem keys_interfaceOf (split : Bool) (model : Model) :
    (interfaceOf split model).members.map Member.key = model.properties.keys.map memberKey := by
  unfold interfaceOf OrderedMap.keys
  rw [List.map_map, List.map_map]
  rfl

theorem nodup_keys_interfaceOf (split : Bool) (model : Model) :
    ((interfaceOf split model).members.map Member.key).Nodup := by
  rw [keys_interfaceOf]
  exact List.Nodup.map memberKey_injective model.properties.nodup

end Keys

/-- The reader of member keys accepts exactly the texts that begin with a literal or with a run of
identifier characters that goes as far as it can. In front of a question mark or a colon it gives
back every name from its key, and what follows. So distinct names have distinct keys, and the keys
of an interface are distinct. -/
theorem member_keys_read_back :
    (∀ text name left, readMemberKey text = some (name, left) ↔ BeginsWithKey text name left) ∧
      (∀ (name : String) (following : List Char),
        following.head? = some '?' ∨ following.head? = some ':' →
          readMemberKey ((memberKey name).toList ++ following) = some (name.toList, following)) ∧
      Function.Injective memberKey ∧
      ∀ split model, ((interfaceOf split model).members.map Member.key).Nodup := by
  refine ⟨?_, ?_, memberKey_injective, nodup_keys_interfaceOf⟩
  · intro text name left
    exact readMemberKey_eq_some_iff
  · intro name following h
    exact readMemberKey_memberKey h

/-- A name that looks like a quoted key with its marks behind it is read back whole. -/
theorem quoted_name_reads_back :
    ("?: 'x'".toList.head? = some '?') ∧
      memberKey "'a'?: \\" = "'\\'a\\'?: \\\\'" ∧
      readMemberKey ((memberKey "'a'?: \\").toList ++ "?: 'x'".toList) =
        some ("'a'?: \\".toList, "?: 'x'".toList) := by
  have hmark : "?: 'x'".toList.head? = some '?' := rfl
  refine ⟨hmark, by decide, ?_⟩
  exact member_keys_read_back.2.1 "'a'?: \\" "?: 'x'".toList (Or.inl hmark)

end ApiClientGen.MemberKeys
