/-
The schemas of users and groups.

* `SchemaDefinition.user`, `SchemaDefinition.group`: their definitions;
* `ObjectSchema.activeDirectory`: both schemas.
-/
import DirectoryLens.Schema.Definition

namespace DirectoryLens

namespace SchemaDefinition

/-- What is said about users. The time of creation has two names, one for the time and one for its
digits as a number. -/
def user : SchemaDefinition :=
  { ofNames "ad" "user" with
    objectClass := ["user"]
    objectCategory := some "person"
    attributes := .ofList
      [("guid", "objectGUID"), ("sid", "objectSid"), ("dn", "distinguishedName"),
       ("username", "sAMAccountName"), ("upn", "userPrincipalName"), ("email", "mail"),
       ("display_name", "displayName"), ("first_name", "givenName"), ("last_name", "sn"),
       ("department", "department"), ("job_title", "title"), ("company", "company"),
       ("employee_id", "employeeID"), ("employee_number", "employeeNumber"),
       ("phone", "telephoneNumber"), ("manager_dn", "manager"), ("member_of_dns", "memberOf"),
       ("account_control", "userAccountControl"), ("disabled", "userAccountControl"),
       ("password_never_expires", "userAccountControl"),
       ("smartcard_required", "userAccountControl"), ("locked_out_at", "lockoutTime"),
       ("password_last_set", "pwdLastSet"), ("last_logon", "lastLogonTimestamp"),
       ("account_expires", "accountExpires"), ("created", "whenCreated"),
       ("created_int", "whenCreated"), ("modified", "whenChanged"),
       ("usn_changed", "uSNChanged")]
    converters := .ofList
      [("guid", "windows_guid"), ("sid", "windows_sid"), ("account_control", "int"),
       ("disabled", "uac_disabled"), ("password_never_expires", "uac_password_never_expires"),
       ("smartcard_required", "uac_smartcard_required"), ("locked_out_at", "windows_time"),
       ("password_last_set", "windows_time"), ("last_logon", "windows_time"),
       ("account_expires", "windows_time"), ("created", "windows_generalized_time"),
       ("created_int", "int"), ("modified", "windows_generalized_time"), ("usn_changed", "int")]
    select :=
      ["guid", "dn", "username", "upn", "email", "display_name", "first_name", "last_name",
       "disabled", "member_of_dns", "created", "modified"]
    required := ["username"]
    defaults := .ofList [("member_of_dns", .array [])]
    repository := some "users"
    rdn := ["cn"] }

/-- What is said about groups. -/
def group : SchemaDefinition :=
  { ofNames "ad" "group" with
    objectClass := ["group"]
    attributes := .ofList
      [("guid", "objectGUID"), ("sid", "objectSid"), ("dn", "distinguishedName"), ("name", "cn"),
       ("sam_account_name", "sAMAccountName"), ("description", "description"),
       ("email", "mail"), ("managed_by_dn", "managedBy"), ("members", "member"),
       ("member_of_dns", "memberOf"), ("group_type", "groupType"), ("security", "groupType"),
       ("global", "groupType"), ("domain_local", "groupType"), ("universal", "groupType"),
       ("created", "whenCreated"), ("modified", "whenChanged"), ("usn_changed", "uSNChanged")]
    converters := .ofList
      [("guid", "windows_guid"), ("sid", "windows_sid"), ("group_type", "int"),
       ("security", "group_security"), ("global", "group_global"),
       ("domain_local", "group_domain_local"), ("universal", "group_universal"),
       ("created", "windows_generalized_time"), ("modified", "windows_generalized_time"),
       ("usn_changed", "int")]
    select :=
      ["guid", "dn", "name", "sam_account_name", "description", "members", "security", "created"]
    required := ["name"]
    defaults := .ofList [("members", .array [])]
    repository := some "groups"
    rdn := ["cn"] }

end SchemaDefinition

namespace ObjectSchema

/-- The schemas of users and groups. -/
def activeDirectory : Except QueryError (List ObjectSchema) :=
  [SchemaDefinition.user, SchemaDefinition.group].mapM SchemaDefinition.toSchema

end ObjectSchema

end DirectoryLens
