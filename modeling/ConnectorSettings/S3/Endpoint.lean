/-
This file holds the grammar of a standard S3 endpoint, part by part, apart from how a region is
found in one.

A text can be put together from parts in more than one way: labels in front of the service may look
like a service themselves.
-/

import ConnectorSettings.S3.Region

namespace ConnectorSettings

namespace S3

/-- The part of a host name from the service on. -/
structure Service where
  joint : Char
  dual : List Char
  region : List Char
  country : List Char
  slash : List Char
  joint_known : joint = '.' ∨ joint = '-'
  dual_known : dual = [] ∨ dual = "dualstack.".toList
  region_filled : region ≠ []
  region_chars : ∀ char ∈ region, isRegionChar char = true
  country_known : country = [] ∨ country = ".cn".toList
  slash_known : slash = [] ∨ slash = ['/']

def Service.text (service : Service) : List Char :=
  's' :: '3' :: service.joint :: (service.dual ++ (service.region ++
    (".amazonaws.com".toList ++ service.country ++ service.slash)))

/-- What can stand between the scheme and the service. -/
def AreLabels (labels : List Char) : Prop :=
  labels = [] ∨ '/' ∉ labels ∧ labels.getLast? = some '.'

structure Endpoint where
  scheme : List Char
  labels : List Char
  service : Service
  scheme_known : scheme = [] ∨ scheme = "http://".toList ∨ scheme = "https://".toList
  labels_whole : AreLabels labels

def Endpoint.text (endpoint : Endpoint) : List Char :=
  endpoint.scheme ++ (endpoint.labels ++ endpoint.service.text)

end S3

end ConnectorSettings
