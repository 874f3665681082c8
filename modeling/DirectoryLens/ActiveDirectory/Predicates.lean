/-
What is asked of accounts and groups.

* `Expression.accountIsDisabled` and its companions: tests of accounts;
* `Expression.isMemberOf`, `hasMember`: membership through any number of groups;
* `Expression.isSecurityGroup` and its companions: tests of groups.

Attributes are named in the directory's words.
-/
import DirectoryLens.ActiveDirectory.AccountControl
import DirectoryLens.ActiveDirectory.GroupType
import DirectoryLens.Expression.Builder

namespace DirectoryLens.Expression

/-- A mask as a value. -/
def maskValue (mask : UInt32) : Value :=
  .integer (Int64.ofNat mask.toNat)

/-! ### Accounts -/

/-- The bits of an account's control word are set. -/
def accountHas (mask : UInt32) : Expression :=
  bitwiseAnd "userAccountControl" (maskValue mask)

/-- The account is disabled. -/
def accountIsDisabled : Expression :=
  accountHas AccountControl.disabledFlag

/-- The account is not disabled. -/
def accountIsEnabled : Expression :=
  notBitwiseAnd "userAccountControl" (maskValue AccountControl.disabledFlag)

/-- The account has been locked out at some time. -/
def accountIsLocked : Expression :=
  atLeast "lockoutTime" (.integer 1)

/-- The password does not expire. -/
def passwordNeverExpires : Expression :=
  accountHas AccountControl.passwordNeverExpiresFlag

/-- The password has to be changed. -/
def passwordMustChange : Expression :=
  eq "pwdLastSet" (.integer 0)

/-- The account receives mail. -/
def mailEnabled : Expression :=
  present "mailNickname"

/-! ### Membership -/

/-- The object is a member of a group, directly or through others. -/
def isMemberOf (group : Value) : Expression :=
  inChain "memberOf" group

/-- The group has a member, directly or through others. -/
def hasMember (dn : Value) : Expression :=
  inChain "member" dn

/-! ### Groups -/

/-- The bits of a group's type word are set. -/
def groupHas (mask : UInt32) : Expression :=
  bitwiseAnd "groupType" (maskValue mask)

/-- The group grants access. -/
def isSecurityGroup : Expression :=
  groupHas GroupType.securityFlag

/-- The group distributes messages. -/
def isDistributionGroup : Expression :=
  notBitwiseAnd "groupType" (maskValue GroupType.securityFlag)

/-- The group is of global scope. -/
def isGlobalGroup : Expression :=
  groupHas GroupType.globalFlag

/-- The group is of the scope of its domain. -/
def isDomainLocalGroup : Expression :=
  groupHas GroupType.domainLocalFlag

/-- The group is of universal scope. -/
def isUniversalGroup : Expression :=
  groupHas GroupType.universalFlag

end DirectoryLens.Expression
